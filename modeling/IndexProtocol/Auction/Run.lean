import IndexProtocol.Auction.Unlock

/-! Runs of the module, from the creation of the SetToken.

Everybody may call any function of the module, other modules and the manager
change the SetToken, tokens move and time passes. In every state reached the
positions are well formed, and whoever has locked the SetToken is an initialized
module; so all that keeps a locked SetToken from being unlocked is what the
conditions for an early end make of its units. -/
namespace IndexProtocol
open Evm PreciseUnitMath ModuleBase

namespace SetToken
variable {s t : SetToken}

/-- Whoever has locked the SetToken may act on it. -/
def LockerInitialized (s : SetToken) : Prop :=
  s.isLocked = true → s.moduleStates s.locker = .initialized

theorem OnlyPositions.sameAuthority (h : s.OnlyPositions t) : s.SameAuthority t :=
  ⟨(congrArg SetToken.modules h).symm, (congrArg SetToken.moduleStates h).symm,
    (congrArg SetToken.isLocked h).symm, (congrArg SetToken.locker h).symm,
    (congrArg SetToken.manager h).symm⟩

theorem LockerInitialized.of_same (h : s.LockerInitialized) (hsame : s.SameAuthority t) :
    t.LockerInitialized := by
  intro hlocked
  rw [hsame.moduleStates, hsame.locker]
  exact h (hsame.isLocked ▸ hlocked)

theorem lockerInitialized_of_unlocked (h : s.isLocked = false) : s.LockerInitialized := by
  intro hlocked
  rw [h] at hlocked
  cases hlocked

theorem edit_authority {e : Edit} (he : s.edit e = .ok t) : s.SameAuthority t := by
  cases e with
  | editDefaultPosition sender component newUnit =>
    exact (editDefaultPosition_only he).sameAuthority
  | editExternalPosition sender component module newUnit data =>
    exact (editExternalPosition_only he).sameAuthority
  | editPositionMultiplier sender newMultiplier =>
    obtain ⟨_, _, rfl⟩ := editPositionMultiplier_eq_ok.mp he
    exact ⟨rfl, rfl, rfl, rfl, rfl⟩

theorem edits_authority {edits : List Edit} (he : runs edit s edits = .ok t) : s.SameAuthority t :=
  runs_invariant s.SameAuthority (fun _ _ _ h hstep => h.trans (edit_authority hstep)) (.refl s) he

/-- One call keeps the locker an initialized module. -/
theorem call_lockerInitialized {a : Call} (h : s.LockerInitialized) (ha : s.call a = .ok t) :
    t.LockerInitialized := by
  cases a with
  | edit e => exact h.of_same (edit_authority ha)
  | mint sender account quantity =>
    obtain ⟨_, _, _, rfl⟩ := mint_eq_ok.mp ha
    exact h.of_same ⟨rfl, rfl, rfl, rfl, rfl⟩
  | burn sender account quantity =>
    obtain ⟨_, _, _, rfl⟩ := burn_eq_ok.mp ha
    exact h.of_same ⟨rfl, rfl, rfl, rfl, rfl⟩
  | lock sender =>
    obtain ⟨hinitialized, _, _, rfl⟩ := lock_eq_ok.mp ha
    exact fun _ => hinitialized
  | unlock sender =>
    obtain ⟨_, _, _, _, rfl⟩ := unlock_eq_ok.mp ha
    exact lockerInitialized_of_unlocked rfl
  | addModule sender module =>
    obtain ⟨_, hnone, _, rfl⟩ := addModule_eq_ok.mp ha
    intro hlocked
    have hlocker := h hlocked
    have hne : s.locker ≠ module := by
      rintro rfl
      rw [hlocker] at hnone
      cases hnone
    exact (Function.update_of_ne hne _ _).trans hlocker
  | removeModule sender module edits =>
    simp only [call] at ha
    obtain ⟨_, hunlocked, _, u, hedits, _, _, rfl⟩ := removeModule_eq_ok.mp ha
    exact lockerInitialized_of_unlocked ((edits_authority hedits).isLocked.trans hunlocked)
  | removePendingModule sender module =>
    obtain ⟨_, hunlocked, _, rfl⟩ := removePendingModule_eq_ok.mp ha
    exact lockerInitialized_of_unlocked hunlocked
  | initializeModule sender =>
    obtain ⟨hunlocked, _, rfl⟩ := initializeModule_eq_ok.mp ha
    exact lockerInitialized_of_unlocked hunlocked
  | setManager sender manager =>
    obtain ⟨_, hunlocked, rfl⟩ := setManager_eq_ok.mp ha
    exact lockerInitialized_of_unlocked hunlocked
  | changeController controller =>
    obtain rfl := pure_eq_ok.mp ha
    exact h.of_same ⟨rfl, rfl, rfl, rfl, rfl⟩

/-- A new SetToken is not locked. -/
theorem create_unlocked {controller : Controller} {factory self manager : Address}
    {components modules : List Address} {units : List Int}
    (h : SetTokenCreator.create controller factory self components units modules manager = .ok s) :
    s.isLocked = false := by
  simp only [SetTokenCreator.create, bind_eq_ok, pure_eq_ok] at h
  obtain ⟨_, _, _, _, _, _, _, _, _, _, _, _, _, _, _, _, _, _, rfl⟩ := h
  rfl

end SetToken

namespace AuctionRebalanceModuleV1
variable {adapters : Address → PriceAdapter} {module : Address} {w v : AuctionWorld}

/-- What happens to the SetToken, and who calls. -/
inductive Action where
  | initializeSet (sender : Address)
  | startRebalance (sender quoteAsset : Address) (newComponents : List Address)
      (newComponentsAuctionParams oldComponentsAuctionParams : List AuctionExecutionParams)
      (shouldLockSetToken : Bool) (rebalanceDuration initialPositionMultiplier : Nat)
  | bid (sender component quoteAsset : Address) (componentAmount quoteAssetLimit : Nat)
      (isSellAuction : Bool)
  | raiseAssetTargets (sender : Address)
  | unlock
  | setRaiseTargetPercentage (sender : Address) (raiseTargetPercentage : Nat)
  | setBidderStatus (sender : Address) (bidders : List Address) (statuses : List Bool)
  | setAnyoneBid (sender : Address) (status : Bool)
  | removeModule (sender : Address)
  /-- What other modules and the manager do to the SetToken. -/
  | callSetToken (call : SetToken.Call)
  /-- Tokens move, and time passes. -/
  | elsewhere (tokens : Address → Erc20) (timestamp : Nat)

def step (adapters : Address → PriceAdapter) (module : Address) (w : AuctionWorld) :
    Action → Result AuctionWorld
  | .initializeSet sender => initializeSet module w sender
  | .startRebalance sender quoteAsset newComponents newParams oldParams shouldLock duration
      multiplier =>
    startRebalance adapters module w sender quoteAsset newComponents newParams oldParams shouldLock
      duration multiplier
  | .bid sender component quoteAsset componentAmount quoteAssetLimit isSellAuction =>
    bid adapters module w sender component quoteAsset componentAmount quoteAssetLimit isSellAuction
  | .raiseAssetTargets sender => raiseAssetTargets w sender
  | .unlock => unlock module w
  | .setRaiseTargetPercentage sender raiseTargetPercentage =>
    setRaiseTargetPercentage module w sender raiseTargetPercentage
  | .setBidderStatus sender bidders statuses => setBidderStatus module w sender bidders statuses
  | .setAnyoneBid sender status => setAnyoneBid module w sender status
  | .removeModule sender => removeFromSet module w sender
  | .callSetToken call => w.callSetToken (·.call call)
  | .elsewhere tokens timestamp => do
    require (w.rest.timestamp ≤ timestamp ∧ timestamp < uintBound) "time only passes"
    pure { w with tokens := tokens, rest := { w.rest with timestamp := timestamp } }

/-- What holds in every state reached. -/
structure Sound (w : AuctionWorld) : Prop where
  wellFormed : w.setToken.WellFormed
  locker : w.setToken.LockerInitialized
  timestamp : w.rest.timestamp < uintBound

theorem Sound.of_call {call : SetToken.Call} (h : Sound w)
    (hcall : w.setToken.call call = .ok v.setToken) (htime : v.rest.timestamp = w.rest.timestamp) :
    Sound v :=
  ⟨SetToken.call_wellFormed h.wellFormed hcall, SetToken.call_lockerInitialized h.locker hcall,
    htime ▸ h.timestamp⟩

theorem Sound.of_same (h : Sound w) (hset : v.setToken = w.setToken)
    (htime : v.rest.timestamp = w.rest.timestamp) : Sound v :=
  ⟨hset ▸ h.wellFormed, hset ▸ h.locker, htime ▸ h.timestamp⟩

/-- A call of the SetToken by the module, after its own state was written. -/
theorem Sound.of_callSetToken {u : AuctionWorld} (call : SetToken.Call) (h : Sound w)
    (hv : u.callSetToken (·.call call) = .ok v) (hset : u.setToken = w.setToken)
    (htime : u.rest.timestamp = w.rest.timestamp) : Sound v := by
  obtain ⟨t, ht, rfl⟩ := World.callSetToken_eq_ok.mp hv
  rw [hset] at ht
  exact h.of_call ht htime

theorem setExecutionInfo_same {pairs : List (Address × AuctionExecutionParams)}
    (h : setExecutionInfo w pairs = .ok v) :
    v.setToken = w.setToken ∧ v.rest.timestamp = w.rest.timestamp := by
  refine runs_invariant
    (fun u : AuctionWorld => u.setToken = w.setToken ∧ u.rest.timestamp = w.rest.timestamp)
    (fun u a t hu hstep => ?_) ⟨rfl, rfl⟩ h
  simp only [bind_eq_ok, pure_eq_ok] at hstep
  obtain ⟨_, _, rfl⟩ := hstep
  exact hu

theorem initializeSet_sound {sender : Address} (h : Sound w)
    (hv : initializeSet module w sender = .ok v) : Sound v := by
  simp only [initializeSet, bind_eq_ok] at hv
  obtain ⟨_, _, _, _, positions, _, u, htargets, multiplier, _, hcall⟩ := hv
  have hsame : u.setToken = w.setToken ∧ u.rest.timestamp = w.rest.timestamp := by
    refine runs_invariant
      (fun u : AuctionWorld => u.setToken = w.setToken ∧ u.rest.timestamp = w.rest.timestamp)
      (fun u a t hu hstep => ?_) ⟨rfl, rfl⟩ htargets
    simp only [bind_eq_ok, pure_eq_ok] at hstep
    obtain ⟨_, _, _, _, rfl⟩ := hstep
    exact hu
  exact h.of_callSetToken (.initializeModule module) hcall hsame.1 hsame.2

theorem startRebalance_sound {sender quoteAsset : Address} {newComponents : List Address}
    {newParams oldParams : List AuctionExecutionParams} {shouldLock : Bool}
    {duration multiplier : Nat} (h : Sound w)
    (hv : startRebalance adapters module w sender quoteAsset newComponents newParams oldParams
      shouldLock duration multiplier = .ok v) : Sound v := by
  simp only [startRebalance, bind_eq_ok, pure_eq_ok] at hv
  obtain ⟨_, _, u, hlock, ⟨_, _⟩, _, u', hinfo, rfl⟩ := hv
  have hu : Sound u := by
    split_ifs at hlock
    · exact h.of_callSetToken (.lock module) hlock rfl rfl
    · obtain rfl := pure_eq_ok.mp hlock
      exact h
  obtain ⟨hset, htime⟩ := setExecutionInfo_same hinfo
  exact hu.of_same hset htime

theorem bid_sound {sender component quoteAsset : Address} {amount limit : Nat} {isSell : Bool}
    (h : Sound w)
    (hv : bid adapters module w sender component quoteAsset amount limit isSell = .ok v) :
    Sound v := by
  obtain ⟨_, _, _, _, houtcome⟩ := bid_eq h.wellFormed hv
  exact ⟨houtcome.wellFormed, h.locker.of_same houtcome.only.sameAuthority,
    houtcome.rest ▸ h.timestamp⟩

/-- One step keeps a sound state sound. -/
theorem step_sound {a : Action} (h : Sound w) (ha : step adapters module w a = .ok v) : Sound v := by
  cases a with
  | initializeSet sender => exact initializeSet_sound h ha
  | startRebalance sender quoteAsset newComponents newParams oldParams shouldLock duration
      multiplier => exact startRebalance_sound h ha
  | bid sender component quoteAsset amount limit isSell => exact bid_sound h ha
  | raiseAssetTargets sender =>
    simp only [step, raiseAssetTargets, bind_eq_ok, pure_eq_ok] at ha
    obtain ⟨_, _, _, _, _, _, _, _, _, _, _, _, _, _, rfl⟩ := ha
    exact h.of_same rfl rfl
  | unlock =>
    simp only [step, unlock, bind_eq_ok] at ha
    obtain ⟨_, _, _, _, _, _, hcall⟩ := ha
    exact h.of_callSetToken (.unlock module) hcall rfl rfl
  | setRaiseTargetPercentage sender raiseTargetPercentage =>
    simp only [step, setRaiseTargetPercentage, bind_eq_ok, pure_eq_ok] at ha
    obtain ⟨_, _, rfl⟩ := ha
    exact h.of_same rfl rfl
  | setBidderStatus sender bidders statuses =>
    simp only [step, setBidderStatus, bind_eq_ok, pure_eq_ok] at ha
    obtain ⟨_, _, _, _, _, _, rfl⟩ := ha
    exact h.of_same rfl rfl
  | setAnyoneBid sender status =>
    simp only [step, setAnyoneBid, bind_eq_ok, pure_eq_ok] at ha
    obtain ⟨_, _, rfl⟩ := ha
    exact h.of_same rfl rfl
  | removeModule sender =>
    simp only [step, removeFromSet, bind_eq_ok] at ha
    obtain ⟨_, hvalid, hcall⟩ := ha
    obtain ⟨t, ht, rfl⟩ := World.callSetToken_eq_ok.mp hcall
    have hremove : w.setToken.call (.removeModule sender module []) = .ok t :=
      bind_eq_ok.mpr ⟨_, hvalid, bind_eq_ok.mpr ⟨_, rfl, ht⟩⟩
    exact h.of_call hremove rfl
  | callSetToken call =>
    exact h.of_callSetToken call ha rfl rfl
  | elsewhere tokens timestamp =>
    simp only [step, bind_eq_ok, require_eq_ok, exists_const, pure_eq_ok] at ha
    obtain ⟨⟨_, hlt⟩, rfl⟩ := ha
    exact ⟨h.wellFormed, h.locker, hlt⟩

section Reachable
variable {controller : Controller} {factory self manager : Address}
  {components modules : List Address} {units : List Int} {actions : List Action}

theorem reachable_sound
    (hcreate : SetTokenCreator.create controller factory self components units modules manager =
      .ok w.setToken)
    (htime : w.rest.timestamp < uintBound) (hrun : runs (step adapters module) w actions = .ok v) :
    Sound v := by
  refine runs_invariant Sound (fun _ _ _ => step_sound) ⟨?_, ?_, htime⟩ hrun
  · exact SetToken.create_wellFormed hcreate
  · exact SetToken.lockerInitialized_of_unlocked (SetToken.create_unlocked hcreate)

/-- **When a locked SetToken can be unlocked.** In every run from the creation of the SetToken, while
it is locked by the module, it can be unlocked as documented exactly where the conditions for an
early end can be evaluated, the end of the rebalance is a time, and the module is enabled. -/
theorem reachable_unlockable_iff
    (hcreate : SetTokenCreator.create controller factory self components units modules manager =
      .ok w.setToken)
    (htime : w.rest.timestamp < uintBound) (hrun : runs (step adapters module) w actions = .ok v)
    (hlocked : v.setToken.isLocked = true) (hlocker : v.setToken.locker = module) :
    Unlockable module v ↔ Releasable module v := by
  have hsound := reachable_sound hcreate htime hrun
  have hinitialized := hsound.locker hlocked
  rw [hlocker] at hinitialized
  exact unlockable_iff hsound.wellFormed hsound.timestamp ⟨hlocked, hlocker, hinitialized⟩

end Reachable

/-! A rebalance to the units that there are is over at once, for a quote asset of the SetToken and for
one that it does not have. -/

def exampleDeployed : Result AuctionWorld := do
  let s ← exampleCreation (10 ^ 18)
  pure ⟨s, exampleTokens (10 ^ 18), .empty 1000⟩

/-- An hour passes. -/
def exampleActions (quoteAsset : Address) : List Action :=
  [.callSetToken (.initializeModule 60), .callSetToken (.changeController exampleController),
    .callSetToken (.mint 60 77 (10 ^ 18)), .initializeSet 9,
    .startRebalance 9 quoteAsset [] [] [⟨10 ^ 18, "price", []⟩] true 3600 (10 ^ 18),
    .elsewhere (exampleTokens (10 ^ 18)) 4600]

theorem exampleDeployed_spec (h : exampleDeployed = .ok w) :
    exampleCreation (10 ^ 18) = .ok w.setToken ∧ w.rest.timestamp < uintBound := by
  simp only [exampleDeployed, bind_eq_ok, pure_eq_ok] at h
  obtain ⟨s, hs, rfl⟩ := h
  exact ⟨hs, show 1000 < uintBound by decide⟩

theorem reachable_unlockable_example : ∃ w v, exampleDeployed = .ok w ∧
    runs (step exampleAdapters 50) w (exampleActions 1) = .ok v ∧ Elapsed v ∧ Unlockable 50 v := by
  have h : (do
      let w ← exampleDeployed
      let v ← runs (step exampleAdapters 50) w (exampleActions 1)
      let early ← canUnlockEarly v
      require (early = true ∧ v.setToken.isLocked = true ∧ v.setToken.locker = 50 ∧
        v.setToken.controller.isModule 50 = true ∧
        (rebalance v).rebalanceStartTime + (rebalance v).rebalanceDuration = 4600 ∧
        v.rest.timestamp = 4600) "") = .ok () := by
    decide +kernel
  simp only [bind_eq_ok, require_eq_ok] at h
  obtain ⟨w, hw, v, hv, _, hearly, rfl, hlocked, hlocker, henabled, hexpiry, htime⟩ := h
  obtain ⟨hcreate, hbound⟩ := exampleDeployed_spec hw
  have hevaluates := ((canUnlockEarly_eq_ok (reachable_sound hcreate hbound hv).wellFormed).mp hearly).1
  refine ⟨w, v, hw, hv, ?_, (reachable_unlockable_iff hcreate hbound hv hlocked hlocker).mpr
    ⟨fun _ => hevaluates, fun _ _ => ?_, fun _ => henabled⟩⟩
  · rw [Elapsed, hexpiry, htime]
  · rw [hexpiry]
    decide

/-- The SetToken has none of the quote asset and should have none; it stays locked. -/
theorem unlock_reverts : ∃ w v, exampleDeployed = .ok w ∧
    runs (step exampleAdapters 50) w (exampleActions 2) = .ok v ∧
    v.setToken.isLocked = true ∧ v.setToken.locker = 50 ∧ Elapsed v ∧
    unlock 50 v = .error "SafeMath: subtraction overflow" ∧ ¬Unlockable 50 v := by
  have h : (do
      let w ← exampleDeployed
      let v ← runs (step exampleAdapters 50) w (exampleActions 2)
      require (v.setToken.isLocked = true ∧ v.setToken.locker = 50 ∧
        (rebalance v).rebalanceStartTime + (rebalance v).rebalanceDuration ≤ v.rest.timestamp ∧
        (match unlock 50 v with
          | .ok _ => none
          | .error reason => some reason) = some "SafeMath: subtraction overflow") "") = .ok () := by
    decide +kernel
  simp only [bind_eq_ok, require_eq_ok] at h
  obtain ⟨w, hw, v, hv, hlocked, hlocker, helapsed, hreverts⟩ := h
  have hunlock : unlock 50 v = .error "SafeMath: subtraction overflow" := by
    cases hu : unlock 50 v with
    | ok u =>
      rw [hu] at hreverts
      cases hreverts
    | error reason =>
      rw [hu] at hreverts
      rw [Option.some.inj hreverts]
  refine ⟨w, v, hw, hv, hlocked, hlocker, helapsed, hunlock, fun hunlockable => ?_⟩
  obtain ⟨u, hu, _⟩ := hunlockable.elapsed helapsed
  rw [hunlock] at hu
  cases hu

end AuctionRebalanceModuleV1

end IndexProtocol
