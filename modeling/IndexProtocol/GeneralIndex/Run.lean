import IndexProtocol.GeneralIndex.Trade

/-! Runs of the module, and the WETH that remains in them.

A target is meant for the multiplier that was logged with it, and is normalized to the one
that the SetToken has now. The guard of `tradeRemainingWETH` compares the unit of WETH with
the target as it was set, while the amount to sell is computed from the normalized one. The
logged multiplier falls each time the targets are raised, and that of the SetToken with
every streaming fee; the two targets stay equal as long as none of the calls that change a
multiplier moves them apart. -/
namespace IndexProtocol
open Evm PreciseUnitMath ModuleBase

namespace SetToken
variable {s t : SetToken}

/-- The multiplier that an edit leaves. -/
def Edit.multiplier (m : Int) : Edit → Int
  | .editPositionMultiplier _ newMultiplier => newMultiplier
  | _ => m

/-- The multiplier that a call leaves. -/
def Call.multiplier (m : Int) : Call → Int
  | .edit e => e.multiplier m
  | .removeModule _ _ edits => edits.foldl Edit.multiplier m
  | _ => m

theorem edit_multiplier {e : Edit} (he : s.edit e = .ok t) :
    t.positionMultiplier = e.multiplier s.positionMultiplier := by
  cases e with
  | editDefaultPosition sender component newUnit =>
    exact (editDefaultPosition_only he).positionMultiplier
  | editExternalPosition sender component module newUnit data =>
    exact (editExternalPosition_only he).positionMultiplier
  | editPositionMultiplier sender newMultiplier =>
    obtain ⟨_, _, rfl⟩ := editPositionMultiplier_eq_ok.mp he
    rfl

theorem edits_multiplier {edits : List Edit} (he : runs edit s edits = .ok t) :
    t.positionMultiplier = edits.foldl Edit.multiplier s.positionMultiplier := by
  refine runs_recorded (fun (u : SetToken) m => u.positionMultiplier = m) ?_ rfl he
  intro u m e r hu hr
  rw [edit_multiplier hr, hu]

theorem call_multiplier {a : Call} (ha : s.call a = .ok t) :
    t.positionMultiplier = a.multiplier s.positionMultiplier := by
  cases a with
  | edit e => exact edit_multiplier ha
  | mint sender account quantity =>
    obtain ⟨_, _, _, rfl⟩ := mint_eq_ok.mp ha
    rfl
  | burn sender account quantity =>
    obtain ⟨_, _, _, rfl⟩ := burn_eq_ok.mp ha
    rfl
  | lock sender =>
    obtain ⟨_, _, _, rfl⟩ := lock_eq_ok.mp ha
    rfl
  | unlock sender =>
    obtain ⟨_, _, _, _, rfl⟩ := unlock_eq_ok.mp ha
    rfl
  | addModule sender module =>
    obtain ⟨_, _, _, rfl⟩ := addModule_eq_ok.mp ha
    rfl
  | removeModule sender module edits =>
    simp only [call] at ha
    obtain ⟨_, _, _, u, hedits, _, _, rfl⟩ := removeModule_eq_ok.mp ha
    exact (edits_multiplier hedits :)
  | removePendingModule sender module =>
    obtain ⟨_, _, _, rfl⟩ := removePendingModule_eq_ok.mp ha
    rfl
  | initializeModule sender =>
    obtain ⟨_, _, rfl⟩ := initializeModule_eq_ok.mp ha
    rfl
  | setManager sender manager =>
    obtain ⟨_, _, rfl⟩ := setManager_eq_ok.mp ha
    rfl
  | changeController controller =>
    obtain rfl := pure_eq_ok.mp ha
    rfl

end SetToken

namespace GeneralIndexModule

/-- What happens to the SetToken, and who calls. -/
inductive Action where
  | initializeSet (sender : Address)
  | startRebalance (sender : Address) (newComponents : List Address)
      (newComponentsTargetUnits oldComponentsTargetUnits : List Nat) (positionMultiplier : Nat)
  | trade (sender origin component : Address) (ethQuantityLimit : Nat)
  | tradeRemainingWETH (sender origin component : Address) (minComponentReceived : Nat)
  | raiseAssetTargets (sender : Address)
  | setTradeMaximums (sender : Address) (components : List Address) (tradeMaximums : List Nat)
  | setExchanges (sender : Address) (components : List Address) (exchangeNames : List String)
  | setCoolOffPeriods (sender : Address) (components : List Address) (coolOffPeriods : List Nat)
  | setExchangeData (sender : Address) (components : List Address)
      (exchangeData : List (List UInt8))
  | setRaiseTargetPercentage (sender : Address) (raiseTargetPercentage : Nat)
  | setTraderStatus (sender : Address) (traders : List Address) (statuses : List Bool)
  | setAnyoneTrade (sender : Address) (status : Bool)
  | removeModule (sender : Address)
  /-- What other modules and the manager do to the SetToken. -/
  | callSetToken (call : SetToken.Call)
  /-- Tokens move, and time passes. -/
  | elsewhere (tokens : Address → Erc20) (timestamp : Nat)

def step (adapters : Address → ExchangeAdapter)
    (exchange : Address → Nat → List UInt8 → IndexWorld → Result IndexWorld)
    (module weth : Address) (w : IndexWorld) : Action → Result IndexWorld
  | .initializeSet sender => initializeSet module w sender
  | .startRebalance sender newComponents newUnits oldUnits positionMultiplier =>
    startRebalance module w sender newComponents newUnits oldUnits positionMultiplier
  | .trade sender origin component ethQuantityLimit =>
    trade adapters exchange module weth w sender origin component ethQuantityLimit
  | .tradeRemainingWETH sender origin component minComponentReceived =>
    tradeRemainingWETH adapters exchange module weth w sender origin component minComponentReceived
  | .raiseAssetTargets sender => raiseAssetTargets weth w sender
  | .setTradeMaximums sender components tradeMaximums =>
    setTradeMaximums module w sender components tradeMaximums
  | .setExchanges sender components exchangeNames =>
    setExchanges module weth w sender components exchangeNames
  | .setCoolOffPeriods sender components coolOffPeriods =>
    setCoolOffPeriods module w sender components coolOffPeriods
  | .setExchangeData sender components exchangeData =>
    setExchangeData module w sender components exchangeData
  | .setRaiseTargetPercentage sender raiseTargetPercentage =>
    setRaiseTargetPercentage module w sender raiseTargetPercentage
  | .setTraderStatus sender traders statuses => setTraderStatus module w sender traders statuses
  | .setAnyoneTrade sender status => setAnyoneTrade module w sender status
  | .removeModule sender => removeFromSet module w sender
  | .callSetToken call => w.callSetToken (·.call call)
  | .elsewhere tokens timestamp => do
    require (w.rest.timestamp ≤ timestamp ∧ timestamp < uintBound) "time only passes"
    pure { w with tokens := tokens, rest := { w.rest with timestamp := timestamp } }

/-- An exchange moves tokens. It calls neither the module nor the SetToken. -/
def TokensOnly (exchange : Address → Nat → List UInt8 → IndexWorld → Result IndexWorld) : Prop :=
  ∀ targetExchange callValue methodData w v,
    exchange targetExchange callValue methodData w = .ok v →
      v.setToken = w.setToken ∧ v.rest = w.rest

/-! ### The two targets of WETH -/

/-- A target that is the same when it is normalized. A logged multiplier of zero normalizes
nothing. -/
def AlignedAt (target multiplier logged : Nat) : Prop :=
  0 < logged → target * multiplier / logged = target

instance (target multiplier logged : Nat) : Decidable (AlignedAt target multiplier logged) :=
  inferInstanceAs (Decidable (_ → _))

def Aligned (weth : Address) (w : IndexWorld) : Prop :=
  AlignedAt (execution w weth).targetUnit w.setToken.positionMultiplier.toNat
    (rebalance w).positionMultiplier

/-- The target of WETH in a rebalance that starts. -/
def rebalanceTarget (weth : Address) (w : IndexWorld) (newComponents : List Address)
    (newComponentsTargetUnits oldComponentsTargetUnits : List Nat) : Nat :=
  (((w.setToken.components ++ newComponents).zip
    (oldComponentsTargetUnits ++ newComponentsTargetUnits)).lookup weth).getD
    (execution w weth).targetUnit

/-- A call that changes a multiplier, or sets the target, leaves the two targets equal. -/
def Keeps (weth : Address) (w : IndexWorld) : Action → Prop
  | .startRebalance _ newComponents newUnits oldUnits positionMultiplier =>
    AlignedAt (rebalanceTarget weth w newComponents newUnits oldUnits)
      w.setToken.positionMultiplier.toNat positionMultiplier
  | .raiseAssetTargets _ =>
    AlignedAt (execution w weth).targetUnit w.setToken.positionMultiplier.toNat
      ((rebalance w).positionMultiplier * preciseUnit /
        (preciseUnit + (rebalance w).raiseTargetPercentage))
  | .callSetToken call =>
    AlignedAt (execution w weth).targetUnit (call.multiplier w.setToken.positionMultiplier).toNat
      (rebalance w).positionMultiplier
  | _ => True

instance (weth : Address) (w : IndexWorld) (a : Action) : Decidable (Keeps weth w a) := by
  cases a <;> unfold Keeps <;> infer_instance

variable {adapters : Address → ExchangeAdapter}
  {exchange : Address → Nat → List UInt8 → IndexWorld → Result IndexWorld}
  {module weth : Address} {u v w : IndexWorld} {component : Address}

/-- What a call leaves alone that changes neither the target of WETH nor a multiplier. -/
structure SameTargets (weth : Address) (w v : IndexWorld) : Prop where
  wellFormed : w.setToken.WellFormed → v.setToken.WellFormed
  multiplier : v.setToken.positionMultiplier = w.setToken.positionMultiplier
  target : (execution v weth).targetUnit = (execution w weth).targetUnit
  logged : (rebalance v).positionMultiplier = (rebalance w).positionMultiplier

namespace SameTargets

theorem refl (weth : Address) (w : IndexWorld) : SameTargets weth w w := ⟨id, rfl, rfl, rfl⟩

theorem trans (h : SameTargets weth w v) (h' : SameTargets weth v u) : SameTargets weth w u :=
  ⟨h'.wellFormed ∘ h.wellFormed, h'.multiplier.trans h.multiplier, h'.target.trans h.target,
    h'.logged.trans h.logged⟩

theorem of_same (hset : v.setToken = w.setToken) (hrest : v.rest = w.rest) :
    SameTargets weth w v := by
  refine ⟨fun h => hset ▸ h, congrArg SetToken.positionMultiplier hset, ?_, ?_⟩
  · rw [execution, execution, hrest]
  · rw [rebalance, rebalance, hrest]

theorem aligned_iff (h : SameTargets weth w v) : Aligned weth v ↔ Aligned weth w := by
  rw [Aligned, Aligned, h.multiplier, h.target, h.logged]

/-- An execution parameter that is not the target. -/
theorem withExecution {p : TradeExecutionParams}
    (hp : p.targetUnit = (execution w component).targetUnit) :
    SameTargets weth w (withExecution w component p) := by
  refine ⟨id, rfl, ?_, rfl⟩
  show (Function.update w.rest.executionInfo component p weth).targetUnit = _
  by_cases hweth : weth = component
  · subst hweth
    rwa [Function.update_self]
  · rw [Function.update_of_ne hweth]
    rfl

/-- A loop of calls that each leave the targets alone. -/
theorem of_runs {α : Type} {step : IndexWorld → α → Result IndexWorld} {as : List α}
    (hstep : ∀ w a v, step w a = .ok v → SameTargets weth w v) (h : runs step w as = .ok v) :
    SameTargets weth w v :=
  runs_invariant (SameTargets weth w) (fun _ _ _ hw ht => hw.trans (hstep _ _ _ ht)) (refl weth w) h

theorem of_sameBut {token : Address} (h : w.SameBut v token) : SameTargets weth w v :=
  of_same h.setToken h.rest

end SameTargets

theorem setEach_sameTargets {α : Type} {set : TradeExecutionParams → α → TradeExecutionParams}
    (hset : ∀ p a, (set p a).targetUnit = p.targetUnit) (pairs : List (Address × α)) :
    SameTargets weth w (setEach w set pairs) := by
  induction pairs generalizing w with
  | nil => exact .refl weth w
  | cons pair rest ih => exact (SameTargets.withExecution (hset _ _)).trans ih

theorem setExchanges_sameTargets {sender : Address} {components : List Address}
    {exchangeNames : List String}
    (h : setExchanges module weth w sender components exchangeNames = .ok v) :
    SameTargets weth w v := by
  simp only [setExchanges, bind_eq_ok] at h
  obtain ⟨_, _, _, _, hloop⟩ := h
  refine .of_runs (fun w pair v hstep => ?_) hloop
  by_cases hweth : pair.1 ≠ weth
  · simp only [if_pos hweth, bind_eq_ok, pure_eq_ok] at hstep
    obtain ⟨_, _, rfl⟩ := hstep
    exact .withExecution rfl
  · simp only [if_neg hweth, pure_eq_ok] at hstep
    subst hstep
    exact .refl weth w

/-! ### Trades -/

section Trades
variable {info : TradeInfo}

theorem executeTrade_sameTargets (hexchange : TokensOnly exchange)
    (h : executeTrade adapters exchange module w info = .ok v) : SameTargets weth w v := by
  simp only [executeTrade, World.invoke, bind_eq_ok] at h
  obtain ⟨u, happrove, ⟨targetExchange, callValue, methodData⟩, _, _, _, hcall⟩ := h
  obtain ⟨hset, hrest⟩ := hexchange _ _ _ _ _ hcall
  exact (SameTargets.of_sameBut (World.invokeApprove_balance happrove).1).trans (.of_same hset hrest)

theorem accrueProtocolFee_sameTargets {fee : Nat}
    (h : accrueProtocolFee module w info = .ok (v, fee)) : SameTargets weth w v := by
  simp only [accrueProtocolFee, bind_eq_ok, pure_eq_ok, Prod.mk.injEq] at h
  obtain ⟨_, _, _, _, _, hpay, rfl, _⟩ := h
  exact .of_sameBut (World.strictInvokeTransfer_balance hpay).1

theorem updatePosition_sameTargets {token : Address} {before : Nat}
    (h : updatePosition module w info token before = .ok v) : SameTargets weth w v := by
  obtain ⟨s, hs, rfl⟩ := World.callSetToken_eq_ok.mp h
  obtain ⟨_, _, _, _, _, hedit⟩ := AuctionRebalanceModuleV1.calculateAndEditDefaultPosition_eq hs
  exact ⟨fun hwf => SetToken.editDefaultPosition_wellFormed hwf hedit,
    (SetToken.editDefaultPosition_only hedit).positionMultiplier, rfl, rfl⟩

theorem updatePositionStateAndTimestamp_sameTargets {amounts : Nat × Nat}
    (h : updatePositionStateAndTimestamp module w info component = .ok (v, amounts)) :
    SameTargets weth w v := by
  simp only [updatePositionStateAndTimestamp, bind_eq_ok, pure_eq_ok, Prod.mk.injEq] at h
  obtain ⟨w₁, hsend, w₂, hreceive, _, _, _, _, rfl, _⟩ := h
  exact ((updatePosition_sameTargets hsend).trans (updatePosition_sameTargets hreceive)).trans
    (.withExecution rfl)

end Trades

theorem trade_sameTargets {sender origin : Address} {limit : Nat} (hexchange : TokensOnly exchange)
    (h : trade adapters exchange module weth w sender origin component limit = .ok v) :
    SameTargets weth w v := by
  simp only [trade, bind_eq_ok, pure_eq_ok] at h
  obtain ⟨_, _, _, _, _, _, info, _, w₁, hexecute, ⟨w₂, fee⟩, hfee, ⟨w₃, amounts⟩, hupdate,
    rfl⟩ := h
  exact ((executeTrade_sameTargets hexchange hexecute).trans (accrueProtocolFee_sameTargets hfee)).trans
    (updatePositionStateAndTimestamp_sameTargets hupdate)

theorem tradeRemainingWETH_sameTargets {sender origin : Address} {minimum : Nat}
    (hexchange : TokensOnly exchange)
    (h : tradeRemainingWETH adapters exchange module weth w sender origin component minimum =
      .ok v) : SameTargets weth w v := by
  simp only [tradeRemainingWETH, bind_eq_ok, pure_eq_ok] at h
  obtain ⟨_, _, _, _, _, _, _, _, _, _, _, _, _, _, info, _, w₁, hexecute, ⟨w₂, fee⟩, hfee,
    ⟨w₃, amounts⟩, hupdate, _, _, _, _, _, _, rfl⟩ := h
  exact ((executeTrade_sameTargets hexchange hexecute).trans (accrueProtocolFee_sameTargets hfee)).trans
    (updatePositionStateAndTimestamp_sameTargets hupdate)

/-! ### The calls that set a target or a multiplier -/

/-- The targets are the units, for the multiplier that there is. -/
theorem initializeSet_aligned {sender : Address} (hwf : w.setToken.WellFormed)
    (h : initializeSet module w sender = .ok v) : v.setToken.WellFormed ∧ Aligned weth v := by
  simp only [initializeSet, bind_eq_ok, SafeCast.toUint256_eq_ok] at h
  obtain ⟨_, _, _, _, positions, _, u, htargets, multiplier, hmultiplier, hcall⟩ := h
  have hset : u.setToken = w.setToken := by
    refine runs_invariant (fun u : IndexWorld => u.setToken = w.setToken)
      (fun u a t hu hstep => ?_) rfl htargets
    simp only [bind_eq_ok, pure_eq_ok] at hstep
    obtain ⟨_, _, _, _, rfl⟩ := hstep
    exact hu
  obtain ⟨s, hs, rfl⟩ := World.callSetToken_eq_ok.mp hcall
  have hcalled : u.setToken.call (.initializeModule module) = .ok s := hs
  refine ⟨SetToken.call_wellFormed (hset ▸ hwf) hcalled, fun hlogged => ?_⟩
  have hsame : s.positionMultiplier.toNat = multiplier := by
    rw [SetToken.call_multiplier hcalled]
    show u.setToken.positionMultiplier.toNat = multiplier
    rw [hmultiplier, Int.toNat_natCast]
  show _ * s.positionMultiplier.toNat / multiplier = _
  rw [hsame]
  exact Nat.mul_div_cancel _ hlogged

/-- The targets that a rebalance sets, each of its own component. -/
theorem setTargets_eq {pairs : List (Address × Nat)} (hnodup : (pairs.map Prod.fst).Nodup)
    (h : runs (fun (w : IndexWorld) (component, targetUnit) => do
        require (Position.hasExternalPosition w.setToken component = false)
          "External positions not allowed"
        pure (withExecution w component { execution w component with targetUnit := targetUnit }))
      w pairs = .ok v) :
    v.setToken = w.setToken ∧
      (execution v weth).targetUnit = (pairs.lookup weth).getD (execution w weth).targetUnit := by
  induction pairs generalizing w with
  | nil =>
    obtain rfl : w = v := by simpa using h
    exact ⟨rfl, rfl⟩
  | cons pair rest ih =>
    obtain ⟨component, targetUnit⟩ := pair
    obtain ⟨u, hu, hrest⟩ := (runs_cons_eq_ok _).mp h
    simp only [bind_eq_ok, pure_eq_ok] at hu
    obtain ⟨_, _, rfl⟩ := hu
    rw [List.map_cons, List.nodup_cons] at hnodup
    obtain ⟨hset, htarget⟩ := ih hnodup.2 hrest
    refine ⟨hset, htarget.trans ?_⟩
    by_cases hweth : weth = component
    · subst hweth
      have hnone : rest.lookup weth = none := by
        rw [List.lookup_eq_none_iff]
        intro p hp
        have hmem : p.1 ∈ rest.map Prod.fst := List.mem_map_of_mem hp
        exact bne_iff_ne.mpr fun heq => hnodup.1 (heq ▸ hmem)
      rw [hnone, List.lookup_cons_self, Option.getD_none, Option.getD_some]
      show (Function.update w.rest.executionInfo weth _ weth).targetUnit = _
      rw [Function.update_self]
    · rw [List.lookup_cons, beq_eq_false_iff_ne.mpr hweth]
      show (rest.lookup weth).getD (Function.update w.rest.executionInfo component _ weth).targetUnit = _
      rw [Function.update_of_ne hweth]
      rfl

theorem startRebalance_eq {sender : Address} {newComponents : List Address}
    {newUnits oldUnits : List Nat} {positionMultiplier : Nat}
    (h : startRebalance module w sender newComponents newUnits oldUnits positionMultiplier =
      .ok v) :
    v.setToken = w.setToken ∧ (rebalance v).positionMultiplier = positionMultiplier ∧
      (execution v weth).targetUnit = rebalanceTarget weth w newComponents newUnits oldUnits := by
  simp only [startRebalance, getAggregateComponentsAndUnits, bind_eq_ok, require_eq_ok, exists_const,
    pure_eq_ok] at h
  obtain ⟨_, _, _, ⟨hnew, hold, duplicate, hduplicate, rfl, rfl⟩, u, hloop, rfl⟩ := h
  have hnodup := ArrayUtils.hasDuplicate_eq_false hduplicate
  have hkeys : ((w.setToken.components ++ newComponents).zip (oldUnits ++ newUnits)).map Prod.fst =
      w.setToken.components ++ newComponents := by
    apply List.map_fst_zip
    rw [List.length_append, List.length_append, hnew, hold]
  rw [← hkeys] at hnodup
  obtain ⟨hset, htarget⟩ := setTargets_eq hnodup hloop
  exact ⟨hset, rfl, htarget⟩

theorem raiseAssetTargets_eq {sender : Address} (h : raiseAssetTargets weth w sender = .ok v) :
    v.setToken = w.setToken ∧ v.rest.executionInfo = w.rest.executionInfo ∧
      (rebalance v).positionMultiplier = (rebalance w).positionMultiplier * preciseUnit /
        (preciseUnit + (rebalance w).raiseTargetPercentage) := by
  simp only [raiseAssetTargets, bind_eq_ok, SafeMath.add_eq_ok, preciseDiv_eq_ok, pure_eq_ok] at h
  obtain ⟨_, _, _, _, _, _, _, _, _, _, _, _, _, ⟨_, rfl⟩, _, ⟨_, _, rfl⟩, rfl⟩ := h
  exact ⟨rfl, rfl, rfl⟩

/-! ### Runs -/

theorem removeFromSet_eq {sender : Address} (h : removeFromSet module w sender = .ok v) :
    (∃ call, w.setToken.call call = .ok v.setToken) ∧ (rebalance v).positionMultiplier = 0 := by
  simp only [removeFromSet, bind_eq_ok] at h
  obtain ⟨_, hvalid, hcall⟩ := h
  obtain ⟨s, hs, rfl⟩ := World.callSetToken_eq_ok.mp hcall
  have hremove : w.setToken.call (.removeModule sender module []) = .ok s :=
    bind_eq_ok.mpr ⟨_, hvalid, bind_eq_ok.mpr ⟨_, rfl, hs⟩⟩
  exact ⟨⟨_, hremove⟩, rfl⟩

/-- One step leaves the targets of WETH equal exactly if it keeps them so. -/
theorem step_aligned_iff {a : Action} (hexchange : TokensOnly exchange)
    (hwf : w.setToken.WellFormed) (hstep : step adapters exchange module weth w a = .ok v) :
    v.setToken.WellFormed ∧ (Aligned weth w → (Aligned weth v ↔ Keeps weth w a)) := by
  have hsame (h : SameTargets weth w v) (hkeeps : Keeps weth w a) :
      v.setToken.WellFormed ∧ (Aligned weth w → (Aligned weth v ↔ Keeps weth w a)) :=
    ⟨h.wellFormed hwf, fun haligned => iff_of_true (h.aligned_iff.mpr haligned) hkeeps⟩
  cases a with
  | initializeSet sender =>
    obtain ⟨hwf', haligned'⟩ := initializeSet_aligned hwf hstep
    exact ⟨hwf', fun _ => iff_of_true haligned' trivial⟩
  | startRebalance sender newComponents newUnits oldUnits positionMultiplier =>
    obtain ⟨hset, hlogged, htarget⟩ := startRebalance_eq hstep
    refine ⟨hset ▸ hwf, fun _ => ?_⟩
    rw [show Aligned weth v ↔ AlignedAt _ _ _ from .rfl, hset, hlogged, htarget]
    rfl
  | trade sender origin component limit => exact hsame (trade_sameTargets hexchange hstep) trivial
  | tradeRemainingWETH sender origin component minimum =>
    exact hsame (tradeRemainingWETH_sameTargets hexchange hstep) trivial
  | raiseAssetTargets sender =>
    obtain ⟨hset, htarget, hlogged⟩ := raiseAssetTargets_eq hstep
    refine ⟨hset ▸ hwf, fun _ => ?_⟩
    rw [show Aligned weth v ↔ AlignedAt (v.rest.executionInfo weth).targetUnit _ _ from .rfl, hset,
      htarget, hlogged]
    rfl
  | setTradeMaximums sender components tradeMaximums =>
    simp only [step, setTradeMaximums, bind_eq_ok, pure_eq_ok] at hstep
    obtain ⟨_, _, _, _, rfl⟩ := hstep
    refine hsame (setEach_sameTargets ?_ _) trivial
    exact fun p a => rfl
  | setExchanges sender components exchangeNames => exact hsame (setExchanges_sameTargets hstep) trivial
  | setCoolOffPeriods sender components coolOffPeriods =>
    simp only [step, setCoolOffPeriods, bind_eq_ok, pure_eq_ok] at hstep
    obtain ⟨_, _, _, _, rfl⟩ := hstep
    refine hsame (setEach_sameTargets ?_ _) trivial
    exact fun p a => rfl
  | setExchangeData sender components exchangeData =>
    simp only [step, setExchangeData, bind_eq_ok, pure_eq_ok] at hstep
    obtain ⟨_, _, _, _, rfl⟩ := hstep
    refine hsame (setEach_sameTargets ?_ _) trivial
    exact fun p a => rfl
  | setRaiseTargetPercentage sender raiseTargetPercentage =>
    simp only [step, setRaiseTargetPercentage, bind_eq_ok, pure_eq_ok] at hstep
    obtain ⟨_, _, _, _, rfl⟩ := hstep
    exact hsame ⟨id, rfl, rfl, rfl⟩ trivial
  | setTraderStatus sender traders statuses =>
    simp only [step, setTraderStatus, bind_eq_ok, pure_eq_ok] at hstep
    obtain ⟨_, _, _, _, _, _, rfl⟩ := hstep
    exact hsame ⟨id, rfl, rfl, rfl⟩ trivial
  | setAnyoneTrade sender status =>
    simp only [step, setAnyoneTrade, bind_eq_ok, pure_eq_ok] at hstep
    obtain ⟨_, _, rfl⟩ := hstep
    exact hsame ⟨id, rfl, rfl, rfl⟩ trivial
  | removeModule sender =>
    obtain ⟨⟨_, hcall⟩, hlogged⟩ := removeFromSet_eq hstep
    refine ⟨SetToken.call_wellFormed hwf hcall, fun _ => iff_of_true (fun hpos => ?_) trivial⟩
    rw [hlogged] at hpos
    exact absurd hpos (Nat.lt_irrefl 0)
  | callSetToken call =>
    rw [step] at hstep
    obtain ⟨s, hs, rfl⟩ := World.callSetToken_eq_ok.mp hstep
    refine ⟨SetToken.call_wellFormed hwf hs, fun _ => ?_⟩
    show AlignedAt _ s.positionMultiplier.toNat _ ↔ _
    rw [SetToken.call_multiplier hs]
    rfl
  | elsewhere tokens timestamp =>
    simp only [step, bind_eq_ok, pure_eq_ok] at hstep
    obtain ⟨_, _, rfl⟩ := hstep
    exact hsame ⟨id, rfl, rfl, rfl⟩ trivial

/-- In a run the targets of WETH stay equal exactly if every call keeps them so. -/
theorem run_aligned_iff {actions : List Action} (hexchange : TokensOnly exchange)
    (hwf : w.setToken.WellFormed) (haligned : Aligned weth w)
    (hrun : runs (step adapters exchange module weth) w actions = .ok v) :
    (∀ n u, runs (step adapters exchange module weth) w (actions.take n) = .ok u → Aligned weth u) ↔
      Along (step adapters exchange module weth) (Keeps weth) w actions :=
  runs_prefixes_iff_of_invariant (I := Aligned weth) (J := fun u => u.setToken.WellFormed)
    (fun _ _ _ hu ht => (step_aligned_iff hexchange hu ht).1)
    (fun _ _ _ hu hI ht => (step_aligned_iff hexchange hu ht).2 hI) haligned hwf hrun

/-! ### The guard and the amount -/

/-- The guard of `tradeRemainingWETH`. -/
def wethAboveTarget (weth : Address) (w : IndexWorld) : Result Unit := do
  let wethUnit ← getDefaultPositionRealUnit w weth
  require ((execution w weth).targetUnit < wethUnit) "WETH is below target unit"

theorem tradeRemainingWETH_eq {sender origin : Address} {minimum : Nat} :
    tradeRemainingWETH adapters exchange module weth w sender origin component minimum = (do
      validateOnlyAllowedTrader w sender
      validateOnlyEOAIfUnrestricted w sender origin
      let none ← noTokensToSell weth w
      require (none = true) "Sell other set components first"
      wethAboveTarget weth w
      validateTradeParameters weth w component
      let tradeInfo ← createTradeRemainingInfo module weth w component minimum
      let w ← executeTrade adapters exchange module w tradeInfo
      let (w, protocolFee) ← accrueProtocolFee module w tradeInfo
      let (w, _, netReceiveAmount) ← updatePositionStateAndTimestamp module w tradeInfo component
      let received ← SafeMath.add netReceiveAmount protocolFee
      require (received < (execution w component).maxSize) "Trade amount > max trade size"
      validateComponentPositionUnit w component
      pure w) := by
  simp only [tradeRemainingWETH, wethAboveTarget, bind_assoc]

/-- The guard passes exactly where the unit of WETH is above the target for which the amount is
computed, and where it passes the amount can be computed. -/
structure GuardMatches (weth : Address) (w : IndexWorld) (amounts : UnitsAndNotionalAmounts) :
    Prop where
  guard : wethAboveTarget weth w = .ok () ↔ amounts.targetUnit < amounts.currentUnit
  quantity : wethAboveTarget weth w = .ok () → ∃ sendQuantity,
    SafeMath.sub amounts.currentNotional amounts.targetNotional = .ok sendQuantity

/-- Some whole amount of WETH is worth no less than the target, and no more than the unit. -/
def Room (weth : Address) (w : IndexWorld) : Prop :=
  ∃ amount : Nat, w.setToken.totalSupply * normalizedTarget w weth ≤ amount * preciseUnit ∧
    amount * preciseUnit ≤ w.setToken.totalSupply * currentUnit w weth

theorem room_iff : Room weth w ↔ targetNotional w weth ≤ currentNotional w weth := by
  constructor
  · rintro ⟨amount, htarget, hunit⟩
    rw [Nat.mul_comm amount] at htarget
    exact ((ceilDiv_le_iff_le_mul preciseUnit_pos).mpr htarget).trans
      ((Nat.le_div_iff_mul_le preciseUnit_pos).mpr hunit)
  · intro hle
    refine ⟨targetNotional w weth, Rounding.le_ceil_mul _ preciseUnit_pos, ?_⟩
    exact (Nat.mul_le_mul_right _ hle).trans (Nat.div_mul_le_self _ _)

/-- A whole share has room for every unit above the target. -/
theorem room_of_supply (hsupply : preciseUnit ≤ w.setToken.totalSupply)
    (habove : normalizedTarget w weth < currentUnit w weth) : Room weth w := by
  refine ⟨w.setToken.totalSupply * currentUnit w weth / preciseUnit, ?_, Nat.div_mul_le_self _ _⟩
  have hlt := Nat.lt_div_mul_add (a := w.setToken.totalSupply * currentUnit w weth) preciseUnit_pos
  have hstep : w.setToken.totalSupply * (normalizedTarget w weth + 1) ≤
      w.setToken.totalSupply * currentUnit w weth := Nat.mul_le_mul_left _ habove
  rw [Nat.mul_succ] at hstep
  omega

theorem wethAboveTarget_eq_ok
    (hunit : getDefaultPositionRealUnit w weth = .ok (currentUnit w weth)) :
    wethAboveTarget weth w = .ok () ↔ (execution w weth).targetUnit < currentUnit w weth := by
  rw [wethAboveTarget, hunit]
  exact require_eq_ok

/-- Where the targets are equal, the guard is right, and the amount needs room. -/
theorem Aligned.matches_iff {amounts : UnitsAndNotionalAmounts} (haligned : Aligned weth w)
    (hwf : w.setToken.WellFormed)
    (hamounts : getUnitsAndNotionalAmounts w weth w.setToken.totalSupply = .ok amounts) :
    GuardMatches weth w amounts ↔ (normalizedTarget w weth < currentUnit w weth → Room weth w) := by
  have hread := hamounts
  simp only [getUnitsAndNotionalAmounts, bind_eq_ok] at hread
  obtain ⟨unit, hunit, target, htarget, _⟩ := hread
  obtain ⟨_, rfl⟩ := (getDefaultPositionRealUnit_eq_ok hwf).mp hunit
  obtain ⟨_, hlogged, rfl⟩ := (getNormalizedTargetUnit_eq_ok hwf).mp htarget
  have hsame : normalizedTarget w weth = (execution w weth).targetUnit := haligned hlogged
  have hguard := wethAboveTarget_eq_ok hunit
  rw [← hsame] at hguard
  obtain rfl := getUnitsAndNotionalAmounts_eq hwf hamounts
  have hquantity : (∃ q, SafeMath.sub (currentNotional w weth) (targetNotional w weth) = .ok q) ↔
      Room weth w := by
    simp only [SafeMath.sub_eq_ok, room_iff, exists_and_left, exists_eq', and_true]
  constructor
  · intro h habove
    exact hquantity.mp (h.quantity (hguard.mpr habove))
  · intro hroom
    exact ⟨hguard, fun hpasses => hquantity.mpr (hroom (hguard.mp hpasses))⟩

section Reachable
variable {controller : Controller} {factory self manager : Address}
  {components modules : List Address} {units : List Int} {actions : List Action}

/-- **When the guard matches the amount.** In every run from the creation of the SetToken in which
each call that sets the target of WETH, or changes a multiplier, leaves the target the same
when it is normalized, the guard of `tradeRemainingWETH` passes exactly where WETH is above the
normalized target; and then the amount to sell can be computed exactly if there is room for a
whole one. -/
theorem remainingWETH_matches_iff {amounts : UnitsAndNotionalAmounts}
    (hcreate : SetTokenCreator.create controller factory self components units modules manager =
      .ok w.setToken)
    (hnew : (rebalance w).positionMultiplier = 0) (hexchange : TokensOnly exchange)
    (hkeeps : Along (step adapters exchange module weth) (Keeps weth) w actions)
    (hrun : runs (step adapters exchange module weth) w actions = .ok v)
    (hamounts : getUnitsAndNotionalAmounts v weth v.setToken.totalSupply = .ok amounts) :
    GuardMatches weth v amounts ↔ (normalizedTarget v weth < currentUnit v weth → Room weth v) := by
  have hwf := SetToken.create_wellFormed hcreate
  have haligned : Aligned weth w := fun hpos => by omega
  have hwf' : v.setToken.WellFormed := runs_invariant (fun u : IndexWorld => u.setToken.WellFormed)
    (fun _ _ _ hu ht => (step_aligned_iff hexchange hu ht).1) hwf hrun
  have hall := (run_aligned_iff hexchange hwf haligned hrun).mpr hkeeps
  have haligned' : Aligned weth v := hall actions.length v (by rwa [List.take_length])
  exact haligned'.matches_iff hwf' hamounts

end Reachable

/-! WETH, of address 1, and another component are rebalanced to a target and to 100; then the targets
are raised by half. -/

section Example
open AuctionRebalanceModuleV1 (exampleController exampleTokens)

def exampleIndex : Result IndexWorld := do
  let s ← SetTokenCreator.create { exampleController with isSet := fun _ => false } 7 100 [1, 2]
    [12, 100] [50, 60] 9
  pure ⟨s, exampleTokens (10 ^ 18), .empty 1000⟩

def exampleRaise (target : Nat) : List Action :=
  [.callSetToken (.initializeModule 60), .callSetToken (.changeController exampleController),
    .callSetToken (.mint 60 77 (10 ^ 18)), .initializeSet 9, .setAnyoneTrade 9 true,
    .setRaiseTargetPercentage 9 (5 * 10 ^ 17), .startRebalance 9 [] [] [target, 100] (10 ^ 18),
    .raiseAssetTargets 30]

theorem exampleExchange_tokensOnly : TokensOnly exampleExchange := by
  intro targetExchange callValue methodData w v h
  simp only [exampleExchange, bind_eq_ok] at h
  obtain ⟨u, hsale, hpay⟩ := h
  have hsame := (World.callToken_sameBut hsale).1
  have hsame' := (World.callToken_sameBut hpay).1
  exact ⟨hsame'.setToken.trans hsame.setToken, hsame'.rest.trans hsame.rest⟩

theorem exampleIndex_spec (h : exampleIndex = .ok w) :
    SetTokenCreator.create { exampleController with isSet := fun _ => false } 7 100 [1, 2] [12, 100]
      [50, 60] 9 = .ok w.setToken ∧ (rebalance w).positionMultiplier = 0 := by
  simp only [exampleIndex, bind_eq_ok, pure_eq_ok] at h
  obtain ⟨s, hs, rfl⟩ := h
  exact ⟨hs, rfl⟩

/-- A target of one is one and a half when it is normalized, which rounds to one. -/
theorem remainingWETH_matches_example : ∃ w v amounts, exampleIndex = .ok w ∧
    runs (step exampleAdapters exampleExchange 50 1) w (exampleRaise 1) = .ok v ∧
    getUnitsAndNotionalAmounts v 1 v.setToken.totalSupply = .ok amounts ∧
    amounts.currentUnit = 12 ∧ amounts.targetUnit = 1 ∧ GuardMatches 1 v amounts := by
  have h : (do
      let w ← exampleIndex
      let v ← runs (step exampleAdapters exampleExchange 50 1) w (exampleRaise 1)
      let amounts ← getUnitsAndNotionalAmounts v 1 v.setToken.totalSupply
      require (amounts.currentUnit = 12 ∧ amounts.targetUnit = 1 ∧
        v.setToken.totalSupply = preciseUnit ∧
        Along (step exampleAdapters exampleExchange 50 1) (Keeps 1) w (exampleRaise 1)) "") =
        .ok () := by
    decide +kernel
  simp only [bind_eq_ok, require_eq_ok] at h
  obtain ⟨w, hw, v, hv, amounts, hamounts, hunit, htarget, hsupply, hkeeps⟩ := h
  obtain ⟨hcreate, hnew⟩ := exampleIndex_spec hw
  exact ⟨w, v, amounts, hw, hv, hamounts, hunit, htarget,
    (remainingWETH_matches_iff hcreate hnew exampleExchange_tokensOnly hkeeps hv hamounts).mpr
      (room_of_supply hsupply.ge)⟩

/-- A target of ten is fifteen when it is normalized, and the unit of twelve passes the guard. -/
theorem remainingWETH_reverts : ∃ w v amounts, exampleIndex = .ok w ∧
    runs (step exampleAdapters exampleExchange 50 1) w (exampleRaise 10) = .ok v ∧
    getUnitsAndNotionalAmounts v 1 v.setToken.totalSupply = .ok amounts ∧
    amounts.currentUnit = 12 ∧ amounts.targetUnit = 15 ∧ wethAboveTarget 1 v = .ok () ∧
    tradeRemainingWETH exampleAdapters exampleExchange 50 1 v 30 30 2 0 =
      .error "SafeMath: subtraction overflow" ∧ ¬GuardMatches 1 v amounts := by
  have h : (do
      let w ← exampleIndex
      let v ← runs (step exampleAdapters exampleExchange 50 1) w (exampleRaise 10)
      let amounts ← getUnitsAndNotionalAmounts v 1 v.setToken.totalSupply
      wethAboveTarget 1 v
      require (amounts.currentUnit = 12 ∧ amounts.targetUnit = 15 ∧
        (match tradeRemainingWETH exampleAdapters exampleExchange 50 1 v 30 30 2 0 with
          | .ok _ => none
          | .error reason => some reason) = some "SafeMath: subtraction overflow") "") = .ok () := by
    decide +kernel
  simp only [bind_eq_ok, require_eq_ok] at h
  obtain ⟨w, hw, v, hv, amounts, hamounts, _, hpasses, hunit, htarget, hreverts⟩ := h
  refine ⟨w, v, amounts, hw, hv, hamounts, hunit, htarget, hpasses, ?_, fun hmatches => ?_⟩
  · cases hu : tradeRemainingWETH exampleAdapters exampleExchange 50 1 v 30 30 2 0 with
    | ok u =>
      rw [hu] at hreverts
      cases hreverts
    | error reason =>
      rw [hu] at hreverts
      rw [Option.some.inj hreverts]
  · have habove := hmatches.guard.mp hpasses
    omega

end Example

end GeneralIndexModule

end IndexProtocol
