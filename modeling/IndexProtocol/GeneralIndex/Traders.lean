import IndexProtocol.GeneralIndex.Module
import IndexProtocol.Auction.Bidders

/-! Who may trade.

The GeneralIndexModule keeps its traders as the AuctionRebalanceModuleV1 keeps its bidders,
and gives the same guarantee: the permissions are those given last, and a removal ends
them. -/
namespace IndexProtocol
open Evm

namespace GeneralIndexModule
variable {module : Address} {w v : IndexWorld}

/-- The permissions, with the array that lists them. -/
def traders (w : IndexWorld) : Registry :=
  ⟨w.rest.permissionInfo.tradersHistory, w.rest.permissionInfo.tradeAllowList⟩

/-- What happens to the permissions, and everything else. -/
inductive PermissionAction where
  | setTraderStatus (sender : Address) (traders : List Address) (statuses : List Bool)
  | setAnyoneTrade (sender : Address) (status : Bool)
  | initializeSet (sender : Address)
  | removeModule (sender : Address)
  /-- Anything that does not write the permissions. -/
  | elsewhere (v : IndexWorld)

def permissionStep (module : Address) (w : IndexWorld) : PermissionAction → Result IndexWorld
  | .setTraderStatus sender traders statuses => setTraderStatus module w sender traders statuses
  | .setAnyoneTrade sender status => setAnyoneTrade module w sender status
  | .initializeSet sender => initializeSet module w sender
  | .removeModule sender => removeFromSet module w sender
  | .elsewhere v => pure (withPermission v w.rest.permissionInfo)

/-- The statuses set since the module was last removed. -/
def recordStatuses (log : List (Address × Bool)) : PermissionAction → List (Address × Bool)
  | .setTraderStatus _ traders statuses => log ++ traders.zip statuses
  | .removeModule _ => []
  | _ => log

theorem setTraderStatus_traders {sender : Address} {addresses : List Address} {statuses : List Bool}
    (h : setTraderStatus module w sender addresses statuses = .ok v) :
    runs Registry.setStatus (traders w) (addresses.zip statuses) = .ok (traders v) := by
  simp only [setTraderStatus, bind_eq_ok, pure_eq_ok] at h
  obtain ⟨_, _, _, _, info', hloop, rfl⟩ := h
  rw [← List.map_id (addresses.zip statuses)]
  refine runs_map
    (fun info : TradePermissionInfo => Registry.mk info.tradersHistory info.tradeAllowList) id
    (fun info entry t ht => ?_) hloop
  simp only [updateTrader, bind_eq_ok, pure_eq_ok] at ht
  obtain ⟨list, hlist, rfl⟩ := ht
  simp only [Registry.setStatus, id, hlist]
  rfl

theorem initializeSet_traders {sender : Address} (h : initializeSet module w sender = .ok v) :
    traders v = traders w := by
  simp only [initializeSet, bind_eq_ok] at h
  obtain ⟨_, _, _, _, positions, _, u, htargets, _, _, hcall⟩ := h
  have hu : traders u = traders w := by
    refine runs_invariant (fun u : IndexWorld => traders u = traders w)
      (fun u a t hu hstep => ?_) rfl htargets
    simp only [bind_eq_ok, pure_eq_ok] at hstep
    obtain ⟨_, _, _, _, rfl⟩ := hstep
    exact hu
  obtain ⟨_, _, rfl⟩ := World.callSetToken_eq_ok.mp hcall
  exact hu

/-- A removal leaves nothing permitted. -/
theorem removeModule_traders (h : (traders w).Consistent) :
    traders (removeModule w) = .empty ∧ ∀ a, isAllowedTrader (removeModule w) a = false :=
  ⟨h.cleared, fun a => congrFun h.clearFlags a⟩

/-- One step keeps the permissions those given last. -/
theorem permissionStep_tracks {log : List (Address × Bool)} {a : PermissionAction}
    (h : (traders w).Tracks log) (hstep : permissionStep module w a = .ok v) :
    (traders v).Tracks (recordStatuses log a) := by
  cases a with
  | setTraderStatus sender addresses statuses => exact h.setStatuses (setTraderStatus_traders hstep)
  | setAnyoneTrade sender status =>
    simp only [permissionStep, setAnyoneTrade, bind_eq_ok, pure_eq_ok] at hstep
    obtain ⟨_, _, rfl⟩ := hstep
    exact h
  | initializeSet sender =>
    rw [initializeSet_traders hstep]
    exact h
  | removeModule sender =>
    simp only [permissionStep, removeFromSet, bind_eq_ok] at hstep
    obtain ⟨_, _, hcall⟩ := hstep
    obtain ⟨_, _, rfl⟩ := World.callSetToken_eq_ok.mp hcall
    show (traders (removeModule w)).Tracks []
    rw [(removeModule_traders h.consistent).1]
    exact Registry.empty_tracks
  | elsewhere u =>
    obtain rfl := pure_eq_ok.mp hstep
    exact h

theorem permissionRun_tracks {actions : List PermissionAction} (hempty : traders w = .empty)
    (hrun : runs (permissionStep module) w actions = .ok v) :
    (traders v).Tracks (actions.foldl recordStatuses []) := by
  have htracks : (traders w).Tracks [] := by
    rw [hempty]
    exact Registry.empty_tracks
  refine runs_recorded (fun u log => (traders u).Tracks log) ?_ htracks hrun
  intro u log a t hu ht
  exact permissionStep_tracks hu ht

end GeneralIndexModule

/-- **Permissions are those given last and end with the module.** In every run of either module an
address is permitted exactly if it is listed once, its permission is the status set last since the
module was last removed, and when the module is removed nobody is permitted. -/
theorem permissions_granted {adapters : Address → PriceAdapter} {module : Address}
    {controller : Controller} {factory self manager : Address}
    {components modules : List Address} {units : List Int}
    {w v : AuctionWorld} {actions : List AuctionRebalanceModuleV1.Action}
    {i j : IndexWorld} {indexActions : List GeneralIndexModule.PermissionAction}
    (hcreate : SetTokenCreator.create controller factory self components units modules manager =
      .ok w.setToken)
    (htime : w.rest.timestamp < uintBound)
    (hbidders : AuctionRebalanceModuleV1.bidders w = .empty)
    (hrun : runs (AuctionRebalanceModuleV1.step adapters module) w actions = .ok v)
    (htraders : GeneralIndexModule.traders i = .empty)
    (hindex : runs (GeneralIndexModule.permissionStep module) i indexActions = .ok j) :
    ((∀ a, v.rest.permissionInfo.bidAllowList a = true ↔
        v.rest.permissionInfo.biddersHistory.count a = 1) ∧
      (∀ a, v.rest.permissionInfo.bidAllowList a = Registry.lastStatus
        (actions.foldl AuctionRebalanceModuleV1.recordStatuses []) a) ∧
      ∀ sender u, AuctionRebalanceModuleV1.removeFromSet module v sender = .ok u →
        ∀ a, AuctionRebalanceModuleV1.isAllowedBidder u a = false) ∧
    ((∀ a, j.rest.permissionInfo.tradeAllowList a = true ↔
        j.rest.permissionInfo.tradersHistory.count a = 1) ∧
      (∀ a, j.rest.permissionInfo.tradeAllowList a = Registry.lastStatus
        (indexActions.foldl GeneralIndexModule.recordStatuses []) a) ∧
      ∀ sender u, GeneralIndexModule.removeFromSet module j sender = .ok u →
        ∀ a, GeneralIndexModule.isAllowedTrader u a = false) := by
  have hbid := AuctionRebalanceModuleV1.run_tracks hcreate htime hbidders hrun
  have htrade := GeneralIndexModule.permissionRun_tracks htraders hindex
  refine ⟨⟨hbid.consistent.flag_iff, hbid.last, fun sender u hremove a => ?_⟩,
    ⟨htrade.consistent.flag_iff, htrade.last, fun sender u hremove a => ?_⟩⟩
  · simp only [AuctionRebalanceModuleV1.removeFromSet, bind_eq_ok] at hremove
    obtain ⟨_, _, hcall⟩ := hremove
    obtain ⟨_, _, rfl⟩ := World.callSetToken_eq_ok.mp hcall
    exact (AuctionRebalanceModuleV1.removeModule_bidders hbid.consistent).2 a
  · simp only [GeneralIndexModule.removeFromSet, bind_eq_ok] at hremove
    obtain ⟨_, _, hcall⟩ := hremove
    obtain ⟨_, _, rfl⟩ := World.callSetToken_eq_ok.mp hcall
    exact (GeneralIndexModule.removeModule_traders htrade.consistent).2 a

/-- Two are permitted, one of them no longer; then the module is removed. -/
theorem permissions_granted_example :
    ∃ w v : AuctionWorld, AuctionRebalanceModuleV1.exampleDeployed = .ok w ∧
      runs (AuctionRebalanceModuleV1.step AuctionRebalanceModuleV1.exampleAdapters 50) w
        [.callSetToken (.initializeModule 60),
          .callSetToken (.changeController AuctionRebalanceModuleV1.exampleController),
          .initializeSet 9, .setBidderStatus 9 [30, 31] [true, true],
          .setBidderStatus 9 [31] [false]] = .ok v ∧
      v.rest.permissionInfo.bidAllowList 30 = true ∧
      v.rest.permissionInfo.bidAllowList 31 = false ∧
      ∃ u, AuctionRebalanceModuleV1.removeFromSet 50 v 9 = .ok u ∧
        AuctionRebalanceModuleV1.isAllowedBidder u 30 = false := by
  have h : (do
      let w ← AuctionRebalanceModuleV1.exampleDeployed
      let v ← runs (AuctionRebalanceModuleV1.step AuctionRebalanceModuleV1.exampleAdapters 50) w
        [.callSetToken (.initializeModule 60),
          .callSetToken (.changeController AuctionRebalanceModuleV1.exampleController),
          .initializeSet 9, .setBidderStatus 9 [30, 31] [true, true],
          .setBidderStatus 9 [31] [false]]
      let _ ← AuctionRebalanceModuleV1.removeFromSet 50 v 9
      let _ ← runs (GeneralIndexModule.permissionStep 50) ⟨v.setToken, v.tokens, .empty 1000⟩
        [.setTraderStatus 9 [30] [true], .removeModule 9]
      require (w.rest.permissionInfo.biddersHistory = []) "") = .ok () := by decide +kernel
  simp only [bind_eq_ok, require_eq_ok] at h
  obtain ⟨w, hw, v, hv, u, hu, j, hj, _⟩ := h
  obtain ⟨hcreate, hbound⟩ := AuctionRebalanceModuleV1.exampleDeployed_spec hw
  have hempty : AuctionRebalanceModuleV1.bidders w = .empty := by
    simp only [AuctionRebalanceModuleV1.exampleDeployed, bind_eq_ok, pure_eq_ok] at hw
    obtain ⟨_, _, rfl⟩ := hw
    rfl
  obtain ⟨⟨_, hlast, hgone⟩, _⟩ := permissions_granted hcreate hbound hempty hv rfl hj
  exact ⟨w, v, hw, hv, hlast 30, hlast 31, u, hu, hgone 9 u hu 30⟩

end IndexProtocol
