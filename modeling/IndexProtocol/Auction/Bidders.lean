import IndexProtocol.Registry
import IndexProtocol.Auction.Run

/-! Who may bid.

The manager permits bidders, whom the module lists to take their permissions back when it
is removed. In every run the permissions are those given last, and a removal ends them. -/
namespace IndexProtocol
open Evm

namespace AuctionRebalanceModuleV1
variable {adapters : Address → PriceAdapter} {module : Address} {w v : AuctionWorld}

/-- The permissions, with the array that lists them. -/
def bidders (w : AuctionWorld) : Registry :=
  ⟨w.rest.permissionInfo.biddersHistory, w.rest.permissionInfo.bidAllowList⟩

/-- The statuses set since the module was last removed. -/
def recordStatuses (log : List (Address × Bool)) : Action → List (Address × Bool)
  | .setBidderStatus _ bidders statuses => log ++ bidders.zip statuses
  | .removeModule _ => []
  | _ => log

theorem updateBiddersHistory_eq {info info' : BidPermissionInfo} {bidder : Address} {status : Bool}
    (h : updateBiddersHistory info bidder status = .ok info') :
    Registry.updateHistory info.biddersHistory bidder status = .ok info'.biddersHistory ∧
      info'.bidAllowList = info.bidAllowList := by
  unfold updateBiddersHistory at h
  dsimp only at h
  unfold Registry.updateHistory
  split_ifs at h ⊢ with hpush hremove
  · obtain rfl := pure_eq_ok.mp h
    exact ⟨rfl, rfl⟩
  · simp only [bind_eq_ok, pure_eq_ok] at h
    obtain ⟨_, hlist, rfl⟩ := h
    exact ⟨hlist, rfl⟩
  · obtain rfl := pure_eq_ok.mp h
    exact ⟨rfl, rfl⟩

theorem setBidderStatus_bidders {sender : Address} {addresses : List Address} {statuses : List Bool}
    (h : setBidderStatus module w sender addresses statuses = .ok v) :
    runs Registry.setStatus (bidders w) (addresses.zip statuses) = .ok (bidders v) := by
  simp only [setBidderStatus, bind_eq_ok, pure_eq_ok] at h
  obtain ⟨_, _, _, _, info', hloop, rfl⟩ := h
  rw [← List.map_id (addresses.zip statuses)]
  refine runs_map (fun info : BidPermissionInfo => Registry.mk info.biddersHistory info.bidAllowList)
    id (fun info entry t ht => ?_) hloop
  simp only [bind_eq_ok, pure_eq_ok] at ht
  obtain ⟨t', ht', rfl⟩ := ht
  obtain ⟨hlist, hallowed⟩ := updateBiddersHistory_eq ht'
  simp only [Registry.setStatus, id, hlist, hallowed]
  rfl

theorem setExecutionInfo_permissionInfo {pairs : List (Address × AuctionExecutionParams)}
    (h : setExecutionInfo w pairs = .ok v) : v.rest.permissionInfo = w.rest.permissionInfo := by
  refine runs_invariant (fun u : AuctionWorld => u.rest.permissionInfo = w.rest.permissionInfo)
    (fun u a t hu hstep => ?_) rfl h
  simp only [bind_eq_ok, pure_eq_ok] at hstep
  obtain ⟨_, _, rfl⟩ := hstep
  exact hu

/-- A call of the SetToken by the module, after its own state was written. -/
theorem callSetToken_bidders {call : SetToken → Result SetToken} (h : w.callSetToken call = .ok v) :
    bidders v = bidders w := by
  obtain ⟨_, _, rfl⟩ := World.callSetToken_eq_ok.mp h
  rfl

theorem initializeSet_bidders {sender : Address} (h : initializeSet module w sender = .ok v) :
    bidders v = bidders w := by
  simp only [initializeSet, bind_eq_ok] at h
  obtain ⟨_, _, _, _, positions, _, u, htargets, _, _, hcall⟩ := h
  have hu : bidders u = bidders w := by
    refine runs_invariant (fun u : AuctionWorld => bidders u = bidders w)
      (fun u a t hu hstep => ?_) rfl htargets
    simp only [bind_eq_ok, pure_eq_ok] at hstep
    obtain ⟨_, _, _, _, rfl⟩ := hstep
    exact hu
  exact (callSetToken_bidders hcall).trans hu

theorem startRebalance_bidders {sender quoteAsset : Address} {newComponents : List Address}
    {newParams oldParams : List AuctionExecutionParams} {shouldLock : Bool}
    {duration multiplier : Nat}
    (h : startRebalance adapters module w sender quoteAsset newComponents newParams oldParams
      shouldLock duration multiplier = .ok v) : bidders v = bidders w := by
  simp only [startRebalance, bind_eq_ok, pure_eq_ok] at h
  obtain ⟨_, _, u, hlock, ⟨_, _⟩, _, u', hinfo, rfl⟩ := h
  have hu : bidders u = bidders w := by
    split_ifs at hlock
    · exact callSetToken_bidders hlock
    · obtain rfl := pure_eq_ok.mp hlock
      rfl
  have hu' : bidders u' = bidders u := by
    rw [bidders, bidders, setExecutionInfo_permissionInfo hinfo]
  exact hu'.trans hu

/-- A removal leaves nothing permitted. -/
theorem removeModule_bidders (h : (bidders w).Consistent) :
    bidders (removeModule w) = .empty ∧ ∀ a, isAllowedBidder (removeModule w) a = false :=
  ⟨h.cleared, fun a => congrFun h.clearFlags a⟩

/-- One step keeps the permissions those given last. -/
theorem step_tracks {log : List (Address × Bool)} {a : Action} (hsound : Sound w)
    (h : (bidders w).Tracks log) (hstep : step adapters module w a = .ok v) :
    (bidders v).Tracks (recordStatuses log a) := by
  have hsame (hv : bidders v = bidders w) : (bidders v).Tracks log := hv ▸ h
  cases a with
  | initializeSet sender => exact hsame (initializeSet_bidders hstep)
  | startRebalance sender quoteAsset newComponents newParams oldParams shouldLock duration
      multiplier => exact hsame (startRebalance_bidders hstep)
  | bid sender component quoteAsset amount limit isSell =>
    obtain ⟨_, _, _, _, houtcome⟩ := bid_eq hsound.wellFormed hstep
    refine hsame ?_
    rw [bidders, bidders, houtcome.rest]
  | raiseAssetTargets sender =>
    simp only [step, raiseAssetTargets, bind_eq_ok, pure_eq_ok] at hstep
    obtain ⟨_, _, _, _, _, _, _, _, _, _, _, _, _, _, rfl⟩ := hstep
    exact h
  | unlock =>
    simp only [step, unlock, bind_eq_ok] at hstep
    obtain ⟨_, _, _, _, _, _, hcall⟩ := hstep
    exact hsame ((callSetToken_bidders hcall).trans rfl)
  | setRaiseTargetPercentage sender raiseTargetPercentage =>
    simp only [step, setRaiseTargetPercentage, bind_eq_ok, pure_eq_ok] at hstep
    obtain ⟨_, _, rfl⟩ := hstep
    exact h
  | setBidderStatus sender addresses statuses => exact h.setStatuses (setBidderStatus_bidders hstep)
  | setAnyoneBid sender status =>
    simp only [step, setAnyoneBid, bind_eq_ok, pure_eq_ok] at hstep
    obtain ⟨_, _, rfl⟩ := hstep
    exact h
  | removeModule sender =>
    simp only [step, removeFromSet, bind_eq_ok] at hstep
    obtain ⟨_, _, hcall⟩ := hstep
    rw [callSetToken_bidders hcall, (removeModule_bidders h.consistent).1]
    exact Registry.empty_tracks
  | callSetToken call =>
    rw [step] at hstep
    exact hsame (callSetToken_bidders hstep)
  | elsewhere tokens timestamp =>
    simp only [step, bind_eq_ok, require_eq_ok, exists_const, pure_eq_ok] at hstep
    obtain ⟨_, rfl⟩ := hstep
    exact h

/-- In every run from the creation of the SetToken. -/
theorem run_tracks {controller : Controller} {factory self manager : Address}
    {components modules : List Address} {units : List Int} {actions : List Action}
    (hcreate : SetTokenCreator.create controller factory self components units modules manager =
      .ok w.setToken)
    (htime : w.rest.timestamp < uintBound) (hempty : bidders w = .empty)
    (hrun : runs (step adapters module) w actions = .ok v) :
    (bidders v).Tracks (actions.foldl recordStatuses []) := by
  have hsound : Sound w := reachable_sound hcreate htime (runs_nil (step adapters module) w)
  have htracks : (bidders w).Tracks [] := by
    rw [hempty]
    exact Registry.empty_tracks
  refine (runs_recorded (fun u log => Sound u ∧ (bidders u).Tracks log) ?_ ⟨hsound, htracks⟩ hrun).2
  intro u log a t hu ht
  exact ⟨step_sound hu.1 ht, step_tracks hu.1 hu.2 ht⟩

end AuctionRebalanceModuleV1

end IndexProtocol
