import IndexProtocol.Airdrop.Module
import IndexProtocol.Trading.Backing

/-! Runs of the AirdropModule, and changes of its fee.

A listed token is flagged, and listed once, whatever was called before. So when the manager
changes the fee, each token of the list is absorbed once; absorbing one touches neither what the
SetToken holds of another nor its unit, and what was outstanding of all of them is charged at the
fee that there was. -/
namespace IndexProtocol
open Evm PreciseUnitMath ModuleBase

namespace AirdropModule

/-- What happens to the SetToken, and who calls. -/
inductive Action where
  | initializeSet (sender : Address) (airdropSettings : AirdropSettings)
  | absorb (sender token : Address)
  | batchAbsorb (sender : Address) (tokens : List Address)
  | addAirdrop (sender airdrop : Address)
  | removeAirdrop (sender airdrop : Address)
  | updateAnyoneAbsorb (sender : Address) (anyoneAbsorb : Bool)
  | updateFeeRecipient (sender newFeeRecipient : Address)
  | updateAirdropFee (sender : Address) (newFee : Nat)
  | removeModule (sender : Address)
  /-- What other modules and the manager do to the SetToken. -/
  | callSetToken (call : SetToken.Call)
  /-- Tokens move. -/
  | elsewhere (tokens : Address → Erc20)

def step (module : Address) (w : AirdropWorld) : Action → Result AirdropWorld
  | .initializeSet sender airdropSettings => initializeSet module w sender airdropSettings
  | .absorb sender token => absorb module w sender token
  | .batchAbsorb sender tokens => batchAbsorb module w sender tokens
  | .addAirdrop sender airdrop => addAirdrop module w sender airdrop
  | .removeAirdrop sender airdrop => removeAirdrop module w sender airdrop
  | .updateAnyoneAbsorb sender anyoneAbsorb => updateAnyoneAbsorb module w sender anyoneAbsorb
  | .updateFeeRecipient sender newFeeRecipient => updateFeeRecipient module w sender newFeeRecipient
  | .updateAirdropFee sender newFee => updateAirdropFee module w sender newFee
  | .removeModule sender => removeFromSet module w sender
  | .callSetToken call => w.callSetToken (·.call call)
  | .elsewhere tokens => pure { w with tokens := tokens }

variable {module token : Address} {w u v : AirdropWorld} {tokens : List Address}

/-! ### One token -/

/-- Absorbing a token changes its own balance and unit, and no other. -/
structure Touches (w v : AirdropWorld) (token : Address) : Prop where
  wellFormed : v.setToken.WellFormed
  only : w.setToken.OnlyPositions v.setToken
  rest : v.rest = w.rest
  tokens : ∀ other, other ≠ token → v.tokens other = w.tokens other
  units : ∀ other, other ≠ token → v.unit other = w.unit other

/-- The position was left as it was, or the fee was paid and the unit written for what is left. -/
theorem handleAirdropPosition_eq (h : handleAirdropPosition module w token = .ok v) :
    v = w ∨ ∃ (u : AirdropWorld) (newUnit : Nat), u.setToken = w.setToken ∧ u.rest = w.rest ∧
      FeesPaid module w u.tokens token (untracked w token) ∧
      newUnit = u.balance token * preciseUnit / w.setToken.totalSupply ∧
      u.callSetToken (fun s => Position.editDefaultPosition s module token newUnit) = .ok v := by
  simp only [handleAirdropPosition, bind_eq_ok, SafeMath.sub_eq_ok] at h
  obtain ⟨tracked, htracked, amount, ⟨_, hamount⟩, h⟩ := h
  obtain rfl := getDefaultTrackedBalance_eq htracked
  change untracked w token = amount at hamount
  subst hamount
  split_ifs at h
  · simp only [bind_eq_ok, getPostAirdropUnit, SafeMath.sub_eq_ok, preciseDiv_eq_ok] at h
    obtain ⟨⟨u, _, _, total⟩, hfees, _, ⟨_, ⟨_, rfl⟩, _, _, rfl⟩, hedit⟩ := h
    obtain ⟨hset, hrest, hpaid, rfl⟩ := handleFees_paid hfees
    have hleft : u.balance token = w.balance token - totalFees w (untracked w token) := by
      have := hpaid.left
      rw [World.balance, hset]
      omega
    refine .inr ⟨u, _, hset, hrest, hpaid, ?_, hedit⟩
    rw [hleft, hset]
  · exact .inl (pure_eq_ok.mp h).symm

theorem handleAirdropPosition_touches (hwf : w.setToken.WellFormed)
    (h : handleAirdropPosition module w token = .ok v) : Touches w v token := by
  rcases handleAirdropPosition_eq h with rfl | ⟨u, newUnit, hset, hrest, hpaid, _, hedit⟩
  · exact ⟨hwf, .refl _, rfl, fun _ _ => rfl, fun _ _ => rfl⟩
  · have hwritten := World.editDefaultPosition_written (hset ▸ hwf) hedit
    refine ⟨hwritten.wellFormed, hset ▸ hwritten.only, hwritten.rest.trans hrest,
      fun other hne => ?_, fun other hne => ?_⟩
    · rw [hwritten.tokens]
      exact hpaid.others other hne
    · rw [hwritten.units other hne, World.unit, World.unit, hset]

theorem absorbToken_touches (hwf : w.setToken.WellFormed)
    (h : absorbToken module w token = .ok v) : Touches w v token := by
  simp only [absorbToken, bind_eq_ok] at h
  obtain ⟨_, _, hposition⟩ := h
  exact handleAirdropPosition_touches hwf hposition

/-! ### A list of tokens -/

/-- Of the token two states are the same. -/
structure SameAt (w v : AirdropWorld) (token : Address) : Prop where
  only : w.setToken.OnlyPositions v.setToken
  rest : v.rest = w.rest
  tokens : v.tokens token = w.tokens token
  unit : v.unit token = w.unit token

theorem Touches.sameAt {other : Address} (h : Touches w v token) (hne : other ≠ token) :
    SameAt w v other :=
  ⟨h.only, h.rest, h.tokens other hne, h.units other hne⟩

namespace SameAt
variable (h : SameAt w v token)
include h

theorem balance : v.balance token = w.balance token := by
  rw [World.balance, World.balance, h.tokens, h.only.self]

theorem untracked : untracked v token = AirdropModule.untracked w token := by
  show v.balance token - v.setToken.totalSupply * v.unit token / preciseUnit =
    w.balance token - w.setToken.totalSupply * w.unit token / preciseUnit
  rw [h.balance, h.unit, h.only.totalSupply]

theorem backed_congr : Backed v token ↔ Backed w token := by
  show v.unit token * v.setToken.totalSupply ≤ v.balance token * preciseUnit ↔
    w.unit token * w.setToken.totalSupply ≤ w.balance token * preciseUnit
  rw [h.balance, h.unit, h.only.totalSupply]

theorem totalFees (amount : Nat) : totalFees v amount = AirdropModule.totalFees w amount := by
  rw [AirdropModule.totalFees, AirdropModule.totalFees, settings, settings, h.rest]

theorem controller : v.setToken.controller = w.setToken.controller :=
  (congrArg SetToken.controller h.only).symm

theorem protocolTake (amount : Nat) :
    protocolTake module v amount = AirdropModule.protocolTake module w amount := by
  rw [AirdropModule.protocolTake, AirdropModule.protocolTake, h.totalFees, h.controller]

end SameAt

/-- What was outstanding of the token is charged once, and divided without loss. -/
structure Settled (module : Address) (w v : AirdropWorld) (token : Address) : Prop where
  charged_le : totalFees w (untracked w token) ≤ untracked w token
  left : v.balance token + totalFees w (untracked w token) = w.balance token
  paid : ∃ ledger, (w.tokens token).Moved ledger w.setToken.self (settings w).feeRecipient
      (totalFees w (untracked w token) - protocolTake module w (untracked w token)) ∧
    ledger.Moved (v.tokens token) w.setToken.self w.setToken.controller.feeRecipient
      (protocolTake module w (untracked w token))
  backed_iff : Backed v token ↔ 0 < untracked w token ∨ Backed w token
  untracked_lt : (untracked v token : ℚ) < (SetToken.unitStep w.setToken.positionMultiplier + 1 :
    Nat) * w.setToken.totalSupply / preciseUnit + 1

theorem absorbToken_settled (hwf : w.setToken.WellFormed)
    (hfee : (settings w).airdropFee ≤ preciseUnit) (h : absorbToken module w token = .ok v) :
    Settled module w v token := by
  simp only [absorbToken, bind_eq_ok] at h
  obtain ⟨_, _, hposition⟩ := h
  have habsorbed := handleAirdropPosition_absorbed hwf hposition
  refine ⟨?_, ?_, habsorbed.fees.paid, habsorbed.backed_iff, ?_⟩
  · exact Nat.div_le_of_le_mul ((Nat.mul_le_mul_left _ hfee).trans_eq (Nat.mul_comm _ _))
  · rw [World.balance, habsorbed.only.self]
    exact habsorbed.fees.left
  · rw [← habsorbed.only.totalSupply]
    exact habsorbed.untracked_lt

/-- What was done before to other tokens, and after, does not matter. -/
theorem Settled.of_same {w' v' : AirdropWorld} (h : Settled module w v token)
    (hbefore : SameAt w' w token) (hafter : SameAt v v' token) : Settled module w' v' token := by
  have hsettings : settings w = settings w' := congrArg State.airdropSettings hbefore.rest
  obtain ⟨hcharged, hleft, ⟨ledger, hmanager, hprotocol⟩, hbacked, hlt⟩ := h
  rw [hbefore.untracked, hbefore.totalFees] at hcharged hleft
  rw [hbefore.untracked, hbefore.totalFees, hbefore.protocolTake, hbefore.tokens,
    hbefore.only.self, hsettings] at hmanager
  rw [hbefore.untracked, hbefore.protocolTake, hbefore.only.self, hbefore.controller] at hprotocol
  refine ⟨hcharged, ?_, ⟨ledger, hmanager, ?_⟩, ?_, ?_⟩
  · rw [hafter.balance, hleft, hbefore.balance]
  · rwa [hafter.tokens]
  · rw [hafter.backed_congr, hbacked, hbefore.untracked, hbefore.backed_congr]
  · rwa [hafter.untracked, ← hbefore.only.totalSupply, ← hbefore.only.positionMultiplier]

/-- Each token of the list was settled, and no other one changed. -/
structure AllSettled (module : Address) (w v : AirdropWorld) (tokens : List Address) : Prop where
  wellFormed : v.setToken.WellFormed
  only : w.setToken.OnlyPositions v.setToken
  rest : v.rest = w.rest
  settled : ∀ token ∈ tokens, Settled module w v token
  others : ∀ token, token ∉ tokens → SameAt w v token

theorem absorbs_settled (hnodup : tokens.Nodup) (hwf : w.setToken.WellFormed)
    (hfee : (settings w).airdropFee ≤ preciseUnit)
    (h : runs (absorbToken module) w tokens = .ok v) : AllSettled module w v tokens := by
  induction tokens generalizing w with
  | nil =>
    obtain rfl : w = v := by simpa using h
    exact ⟨hwf, .refl _, rfl, fun _ hmem => absurd hmem List.not_mem_nil,
      fun _ _ => ⟨.refl _, rfl, rfl, rfl⟩⟩
  | cons first rest ih =>
    obtain ⟨u, hu, hrest⟩ := (runs_cons_eq_ok _).mp h
    rw [List.nodup_cons] at hnodup
    have htouches := absorbToken_touches hwf hu
    have hsettings : settings u = settings w := congrArg State.airdropSettings htouches.rest
    have hall := ih hnodup.2 htouches.wellFormed (hsettings ▸ hfee) hrest
    refine ⟨hall.wellFormed, htouches.only.trans hall.only, hall.rest.trans htouches.rest,
      fun token hmem => ?_, fun token hnot => ?_⟩
    · cases List.mem_cons.mp hmem with
      | inl hfirst =>
        subst hfirst
        exact (absorbToken_settled hwf hfee hu).of_same ⟨.refl _, rfl, rfl, rfl⟩
          (hall.others _ hnodup.1)
      | inr hlater =>
        -- A token that comes later is not the first one.
        have hne : token ≠ first := fun heq => hnodup.1 (heq ▸ hlater)
        exact (hall.settled token hlater).of_same (htouches.sameAt hne) ⟨.refl _, rfl, rfl, rfl⟩
    · rw [List.mem_cons, not_or] at hnot
      have hother := hall.others token hnot.2
      have hfirst := htouches.sameAt hnot.1
      exact ⟨hfirst.only.trans hother.only, hother.rest.trans hfirst.rest,
        hother.tokens.trans hfirst.tokens, hother.unit.trans hfirst.unit⟩

/-! ### Runs -/

/-- What holds in every state reached. -/
structure Tracked (w : AirdropWorld) : Prop where
  wellFormed : w.setToken.WellFormed
  nodup : (settings w).airdrops.Nodup
  flagged : ∀ airdrop ∈ (settings w).airdrops, isAirdropToken w airdrop = true
  fee_le : (settings w).airdropFee ≤ preciseUnit

theorem Tracked.of_rest (h : Tracked w) (hwf : v.setToken.WellFormed) (hrest : v.rest = w.rest) :
    Tracked v := by
  have hsettings : settings v = settings w := congrArg State.airdropSettings hrest
  refine ⟨hwf, hsettings ▸ h.nodup, fun airdrop hmem => ?_, hsettings ▸ h.fee_le⟩
  rw [isAirdropToken, hrest]
  exact h.flagged airdrop (hsettings ▸ hmem)

theorem absorbs_tracked (h : Tracked w) (hrun : runs (absorbToken module) w tokens = .ok v) :
    Tracked v := by
  refine runs_invariant Tracked (fun u token t hu ht => ?_) h hrun
  have htouches := absorbToken_touches hu.wellFormed ht
  exact hu.of_rest htouches.wellFormed htouches.rest

/-- Flags that are set for all of a list. -/
theorem flagged_foldl {flag : Address → Bool} {airdrop : Address} (airdrops : List Address)
    (h : flag airdrop = true ∨ airdrop ∈ airdrops) :
    airdrops.foldl (fun flag airdrop => Function.update flag airdrop true) flag airdrop = true := by
  induction airdrops generalizing flag with
  | nil => exact h.resolve_right List.not_mem_nil
  | cons first rest ih =>
    rw [List.foldl_cons]
    by_cases hfirst : airdrop = first
    · exact ih (.inl (hfirst ▸ Function.update_self ..))
    · refine ih (h.imp (fun hflag => ?_) fun hmem => ?_)
      · rwa [Function.update_of_ne hfirst]
      · exact (List.mem_cons.mp hmem).resolve_left hfirst

/-- The settings are new, and each of their tokens is flagged. -/
theorem initialized_tracked {airdropSettings : AirdropSettings} (h : Tracked w)
    (hnodup : airdropSettings.airdrops.Nodup) (hfee : airdropSettings.airdropFee ≤ preciseUnit)
    (hcall : World.callSetToken ⟨w.setToken, w.tokens, ⟨airdropSettings,
      airdropSettings.airdrops.foldl (fun flag airdrop => Function.update flag airdrop true)
        w.rest.isAirdrop⟩⟩ (·.initializeModule module) = .ok v) : Tracked v := by
  obtain ⟨s, hs, rfl⟩ := World.callSetToken_eq_ok.mp hcall
  have hwf := h.wellFormed.of_same (SetToken.initializeModule_same hs).1
  exact ⟨hwf, hnodup, fun airdrop hmem => flagged_foldl _ (.inr hmem), hfee⟩

theorem initializeSet_tracked {sender : Address} {airdropSettings : AirdropSettings}
    (h : Tracked w) (hstep : initializeSet module w sender airdropSettings = .ok v) :
    Tracked v := by
  simp only [initializeSet, bind_eq_ok, require_eq_ok, exists_const] at hstep
  obtain ⟨_, _, _, _, hfee, _, hrest⟩ := hstep
  split_ifs at hrest with hsome
  · simp only [bind_eq_ok, require_eq_ok, exists_const] at hrest
    obtain ⟨_, hread, rfl, hcall⟩ := hrest
    exact initialized_tracked h (ArrayUtils.hasDuplicate_eq_false hread) hfee hcall
  · have hnone : airdropSettings.airdrops = [] := by
      rwa [gt_iff_lt, not_lt, Nat.le_zero, List.length_eq_zero_iff] at hsome
    exact initialized_tracked h (hnone ▸ List.nodup_nil) hfee hrest

theorem addAirdrop_tracked {sender airdrop : Address} (h : Tracked w)
    (hstep : addAirdrop module w sender airdrop = .ok v) : Tracked v := by
  simp only [addAirdrop, bind_eq_ok, require_eq_ok, exists_const, pure_eq_ok] at hstep
  obtain ⟨_, _, hnew, rfl⟩ := hstep
  have hnot : airdrop ∉ (settings w).airdrops := by
    intro hmem
    rw [h.flagged airdrop hmem] at hnew
    cases hnew
  refine ⟨h.wellFormed, h.nodup.append (List.nodup_singleton _) ?_, fun other hmem => ?_, h.fee_le⟩
  · rwa [List.disjoint_singleton]
  · show Function.update w.rest.isAirdrop airdrop true other = true
    by_cases hother : other = airdrop
    · rw [hother, Function.update_self]
    · rw [Function.update_of_ne hother]
      exact h.flagged other ((List.mem_append.mp hmem).resolve_right (by simpa using hother))

theorem removeAirdrop_tracked {sender airdrop : Address} (h : Tracked w)
    (hstep : removeAirdrop module w sender airdrop = .ok v) : Tracked v := by
  simp only [removeAirdrop, bind_eq_ok, pure_eq_ok] at hstep
  obtain ⟨_, _, _, _, airdrops, hremove, rfl⟩ := hstep
  obtain ⟨_, hperm⟩ := ArrayUtils.removeStorage_eq_ok hremove
  refine ⟨h.wellFormed, hperm.nodup_iff.mpr (h.nodup.erase _), fun other hmem => ?_, h.fee_le⟩
  have hleft := (List.Nodup.mem_erase_iff h.nodup).mp (hperm.mem_iff.mp hmem)
  show Function.update w.rest.isAirdrop airdrop false other = true
  rw [Function.update_of_ne hleft.1]
  exact h.flagged other hleft.2

theorem updateAirdropFee_tracked {sender : Address} {newFee : Nat} (h : Tracked w)
    (hstep : updateAirdropFee module w sender newFee = .ok v) : Tracked v := by
  simp only [updateAirdropFee, bind_eq_ok, require_eq_ok, exists_const, pure_eq_ok] at hstep
  obtain ⟨_, _, hfee, u, habsorb, rfl⟩ := hstep
  have hu := absorbs_tracked h habsorb
  exact ⟨hu.wellFormed, hu.nodup, hu.flagged, hfee⟩

theorem step_tracked {a : Action} (h : Tracked w) (hstep : step module w a = .ok v) :
    Tracked v := by
  cases a with
  | initializeSet sender airdropSettings => exact initializeSet_tracked h hstep
  | absorb sender token =>
    simp only [step, absorb, bind_eq_ok] at hstep
    obtain ⟨_, _, _, _, habsorb⟩ := hstep
    have htouches := absorbToken_touches h.wellFormed habsorb
    exact h.of_rest htouches.wellFormed htouches.rest
  | batchAbsorb sender tokens =>
    simp only [step, batchAbsorb, bind_eq_ok] at hstep
    obtain ⟨_, _, _, _, habsorb⟩ := hstep
    exact absorbs_tracked h habsorb
  | addAirdrop sender airdrop => exact addAirdrop_tracked h hstep
  | removeAirdrop sender airdrop => exact removeAirdrop_tracked h hstep
  | updateAnyoneAbsorb sender anyoneAbsorb =>
    simp only [step, updateAnyoneAbsorb, bind_eq_ok, pure_eq_ok] at hstep
    obtain ⟨_, _, rfl⟩ := hstep
    exact ⟨h.wellFormed, h.nodup, h.flagged, h.fee_le⟩
  | updateFeeRecipient sender newFeeRecipient =>
    simp only [step, updateFeeRecipient, bind_eq_ok, pure_eq_ok] at hstep
    obtain ⟨_, _, _, _, rfl⟩ := hstep
    exact ⟨h.wellFormed, h.nodup, h.flagged, h.fee_le⟩
  | updateAirdropFee sender newFee => exact updateAirdropFee_tracked h hstep
  | removeModule sender =>
    simp only [step, removeFromSet, bind_eq_ok] at hstep
    obtain ⟨_, hvalid, hcall⟩ := hstep
    obtain ⟨s, hs, rfl⟩ := World.callSetToken_eq_ok.mp hcall
    have hremove : w.setToken.call (.removeModule sender module []) = .ok s :=
      bind_eq_ok.mpr ⟨_, hvalid, bind_eq_ok.mpr ⟨_, rfl, hs⟩⟩
    exact ⟨SetToken.call_wellFormed h.wellFormed hremove, List.nodup_nil,
      fun _ hmem => absurd hmem List.not_mem_nil, Nat.zero_le _⟩
  | callSetToken call =>
    rw [step] at hstep
    obtain ⟨s, hs, rfl⟩ := World.callSetToken_eq_ok.mp hstep
    exact h.of_rest (SetToken.call_wellFormed h.wellFormed hs) rfl
  | elsewhere tokens =>
    obtain rfl := pure_eq_ok.mp hstep
    exact h.of_rest h.wellFormed rfl

section Reachable
variable {controller : Controller} {factory self manager sender : Address}
  {components modules : List Address} {units : List Int} {actions : List Action} {newFee : Nat}

/-- **A new fee is for what comes after it.** In every run from the creation of the SetToken, a
change of the fee charges what every listed token has above its position once, at the fee that there
was and no more than that amount, and divides it between the manager's recipient and the protocol
without loss. What stays untracked of a listed token is less than the shares have of one unit more
than the multiplier, in whole ones, and of no other token the balance or the unit changes. -/
theorem updateAirdropFee_settles
    (hcreate : SetTokenCreator.create controller factory self components units modules manager =
      .ok w.setToken)
    (hnew : settings w = .empty) (hrun : runs (step module) w actions = .ok u)
    (h : updateAirdropFee module u sender newFee = .ok v) :
    (settings v).airdropFee = newFee ∧ (settings v).airdrops = (settings u).airdrops ∧
      (∀ token ∈ (settings u).airdrops, Settled module u v token) ∧
      ∀ token, token ∉ (settings u).airdrops →
        v.balance token = u.balance token ∧ v.unit token = u.unit token := by
  have hstart : Tracked w := by
    refine ⟨SetToken.create_wellFormed hcreate, ?_, ?_, ?_⟩ <;> rw [hnew]
    · exact List.nodup_nil
    · exact fun _ hmem => absurd hmem List.not_mem_nil
    · exact Nat.zero_le _
  have htracked := runs_invariant Tracked (fun _ _ _ => step_tracked) hstart hrun
  simp only [updateAirdropFee, bind_eq_ok, pure_eq_ok] at h
  obtain ⟨_, _, _, _, t, habsorb, rfl⟩ := h
  have hall := absorbs_settled htracked.nodup htracked.wellFormed htracked.fee_le habsorb
  have hsettings : settings t = settings u := congrArg State.airdropSettings hall.rest
  refine ⟨rfl, ?_, fun token hmem => ?_, fun token hnot => ?_⟩
  · show (settings t).airdrops = _
    rw [hsettings]
  · have hsettled := hall.settled token hmem
    exact ⟨hsettled.charged_le, hsettled.left, hsettled.paid, hsettled.backed_iff,
      hsettled.untracked_lt⟩
  · have hsame := hall.others token hnot
    exact ⟨hsame.balance, hsame.unit⟩

end Reachable

/-! The manager lists tokens 1 and 2 for a fifth, and then gives the fee up. -/

section Example
open AuctionRebalanceModuleV1 (exampleController exampleCreation exampleTokens)

def exampleListed : List Action :=
  [.callSetToken (.initializeModule 60), .callSetToken (.changeController exampleController),
    .callSetToken (.mint 60 77 (10 ^ 18)), .initializeSet 9 ⟨[1], 5, 2 * 10 ^ 17, false⟩,
    .addAirdrop 9 2]

theorem updateAirdropFee_settles_example : ∃ s u v, exampleCreation 10 = .ok s ∧
    runs (step 50) ⟨s, exampleTokens 25, ⟨.empty, fun _ => false⟩⟩ exampleListed = .ok u ∧
    updateAirdropFee 50 u 9 0 = .ok v ∧ untracked u 1 = 15 ∧ v.balance 1 = 22 ∧
    (settings v).airdropFee = 0 ∧ Settled 50 u v 1 ∧ Settled 50 u v 2 := by
  have h : (do
      let s ← exampleCreation 10
      let u ← runs (step 50) ⟨s, exampleTokens 25, ⟨.empty, fun _ => false⟩⟩ exampleListed
      let v ← updateAirdropFee 50 u 9 0
      require (untracked u 1 = 15 ∧ v.balance 1 = 22 ∧ (settings u).airdrops = [1, 2]) "") =
        .ok () := by
    decide +kernel
  simp only [bind_eq_ok, require_eq_ok] at h
  obtain ⟨s, hs, u, hrun, v, hv, huntracked, hbalance, hlisted⟩ := h
  obtain ⟨hfee, _, hsettled, _⟩ := updateAirdropFee_settles
    (w := ⟨s, exampleTokens 25, ⟨.empty, fun _ => false⟩⟩) hs rfl hrun hv
  rw [hlisted] at hsettled
  exact ⟨s, u, v, hs, hrun, hv, huntracked, hbalance, hfee, hsettled 1 (by decide),
    hsettled 2 (by decide)⟩

end Example

end AirdropModule

end IndexProtocol
