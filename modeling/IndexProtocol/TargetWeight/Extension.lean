import IndexProtocol.SetValuer
import IndexProtocol.SetToken.Creation
import IndexProtocol.Evm.Bytes

/-! The extension that keeps the weights of a SetToken.

A reserve asset is wrapped into target assets and unwrapped from them through a module of the
SetToken. Both functions check the weights they leave, and `unwrap` that the reserve is
underweight; that it is overweight is asked of the callers of `wrap` only by its documentation.

The module is any function, which may also change the extension, as the operator can while it runs:
the extension relies on nothing of it but the weights afterwards. -/
namespace IndexProtocol
open Evm PreciseUnitMath

structure TargetWeightWrapParams where
  minTargetWeight : Nat
  maxTargetWeight : Nat
  wrapAdapterName : String
  wrapData : Bytes
  unwrapData : Bytes

structure TargetWeightWrapExtension.RebalanceInfo where
  reserveAsset : Address
  minReserveWeight : Nat
  maxReserveWeight : Nat
  targetAssets : List Address

structure TargetWeightWrapExtension where
  wrapModule : Address
  isRebalancingActive : Bool
  isRebalanceOpen : Bool
  executionParams : Address → TargetWeightWrapParams
  rebalanceInfo : TargetWeightWrapExtension.RebalanceInfo

/-- What the extension reads of other contracts, and their other state. -/
structure Surroundings (χ : Type) where
  setToken : SetToken
  /-- The operator of the manager. -/
  operator : Address
  oracle : PriceOracle
  rest : χ

/-- A call of the wrap module, with the reserve asset, the target asset, the units, the name of
the adapter and its data. -/
inductive WrapCall
  | wrap (reserveAsset targetAsset : Address) (units : Nat) (adapterName : String) (data : Bytes)
  | unwrap (reserveAsset targetAsset : Address) (units : Nat) (adapterName : String) (data : Bytes)

structure WeightWorld (χ : Type) where
  extension : TargetWeightWrapExtension
  around : Surroundings χ

namespace TargetWeightWrapExtension
variable {χ : Type}

section Calls
variable (decimals : Address → Nat)
  (invokeManager : Address → WrapCall → WeightWorld χ → Result (WeightWorld χ))
  (w : WeightWorld χ)

/-! ### Weights -/

/-- The value of an asset in the reserve asset. -/
def getAssetValuation (asset : Address) : Result Nat :=
  if w.around.setToken.isComponent asset = true then
    SetValuer.calculateComponentValuation decimals w.around.oracle w.around.setToken asset
      w.extension.rebalanceInfo.reserveAsset
  else pure 0

def getReserveValuation : Result Nat :=
  getAssetValuation decimals w w.extension.rebalanceInfo.reserveAsset

def getTargetAssetValuation (targetAsset : Address) : Result Nat :=
  getAssetValuation decimals w targetAsset

def getTotalValuation : Result Nat :=
  SetValuer.calculateSetTokenValuation decimals w.around.oracle w.around.setToken
    w.extension.rebalanceInfo.reserveAsset

def getReserveWeight : Result Nat := do
  let reserveValuation ← getReserveValuation decimals w
  let totalValuation ← getTotalValuation decimals w
  preciseDiv reserveValuation totalValuation

def getTargetAssetWeight (targetAsset : Address) : Result Nat := do
  let targetAssetValuation ← getTargetAssetValuation decimals w targetAsset
  let totalValuation ← getTotalValuation decimals w
  preciseDiv targetAssetValuation totalValuation

def getTargetAssetAndReserveWeight (targetAsset : Address) : Result (Nat × Nat) := do
  let targetAssetValuation ← getTargetAssetValuation decimals w targetAsset
  let reserveValuation ← getReserveValuation decimals w
  let totalValuation ← getTotalValuation decimals w
  let targetAssetWeight ← preciseDiv targetAssetValuation totalValuation
  let reserveWeight ← preciseDiv reserveValuation totalValuation
  pure (targetAssetWeight, reserveWeight)

def isReserveOverweight : Result Bool := do
  let reserveWeight ← getReserveWeight decimals w
  pure (decide (w.extension.rebalanceInfo.maxReserveWeight < reserveWeight))

def isReserveUnderweight : Result Bool := do
  let reserveWeight ← getReserveWeight decimals w
  pure (decide (reserveWeight < w.extension.rebalanceInfo.minReserveWeight))

/-! ### Rebalances -/

def validateOnlyAllowedRebalancer (caller : Address) : Result Unit :=
  if w.extension.isRebalanceOpen = true then pure ()
  else require (caller = w.around.operator) "Must be allowed rebalancer"

/-- What both functions ask of their callers. -/
def validateRebalance (caller targetAsset : Address) : Result Unit := do
  validateOnlyAllowedRebalancer w caller
  require (w.extension.isRebalancingActive = true) "Rebalancing is not active"
  require (AddressArrayUtils.contains w.extension.rebalanceInfo.targetAssets targetAsset = true)
    "Invalid target asset"

def wrap (caller targetAsset : Address) (reserveUnits : Nat) : Result (WeightWorld χ) := do
  validateRebalance w caller targetAsset
  let params := w.extension.executionParams targetAsset
  let w ← invokeManager w.extension.wrapModule
    (.wrap w.extension.rebalanceInfo.reserveAsset targetAsset reserveUnits params.wrapAdapterName
      params.wrapData) w
  let (targetAssetWeight, reserveWeight) ← getTargetAssetAndReserveWeight decimals w targetAsset
  require (targetAssetWeight ≤ (w.extension.executionParams targetAsset).maxTargetWeight)
    "Target asset overweight post-wrap"
  require (w.extension.rebalanceInfo.minReserveWeight ≤ reserveWeight)
    "Reserve asset underweight post-wrap"
  pure w

def unwrap (caller targetAsset : Address) (targetUnits : Nat) : Result (WeightWorld χ) := do
  validateRebalance w caller targetAsset
  let underweight ← isReserveUnderweight decimals w
  require (underweight = true) "Reserve asset is not underweight"
  let params := w.extension.executionParams targetAsset
  let w ← invokeManager w.extension.wrapModule
    (.unwrap w.extension.rebalanceInfo.reserveAsset targetAsset targetUnits params.wrapAdapterName
      params.unwrapData) w
  let (targetAssetWeight, reserveWeight) ← getTargetAssetAndReserveWeight decimals w targetAsset
  require ((w.extension.executionParams targetAsset).minTargetWeight ≤ targetAssetWeight)
    "Target asset underweight post-unwrap"
  require (reserveWeight ≤ w.extension.rebalanceInfo.maxReserveWeight)
    "Reserve asset overweight post-unwrap"
  pure w

/-! ### The operator -/

def onlyOperator (caller : Address) : Result Unit :=
  require (caller = w.around.operator) "Must be operator"

def setExecutionParams (executionParams : Address → TargetWeightWrapParams) :
    Address × TargetWeightWrapParams → Result (Address → TargetWeightWrapParams)
  | (targetAsset, params) => do
    require (params.minTargetWeight ≤ params.maxTargetWeight) "Invalid min target weight"
    require (params.maxTargetWeight ≤ preciseUnit) "Invalid max target weight"
    pure (Function.update executionParams targetAsset params)

def setTargetWeights (caller reserveAsset : Address) (minReserveWeight maxReserveWeight : Nat)
    (targetAssets : List Address) (params : List TargetWeightWrapParams) :
    Result (WeightWorld χ) := do
  onlyOperator w caller
  require (targetAssets.length = params.length) "Mismatched array lengths"
  require (minReserveWeight ≤ maxReserveWeight) "Invalid min reserve weight"
  require (maxReserveWeight ≤ preciseUnit) "Invalid max reserve weight"
  let executionParams ←
    runs setExecutionParams w.extension.executionParams (targetAssets.zip params)
  pure { w with extension := { w.extension with
    rebalanceInfo := ⟨reserveAsset, minReserveWeight, maxReserveWeight, targetAssets⟩
    executionParams := executionParams
    isRebalancingActive := true } }

def pauseRebalance (caller : Address) : Result (WeightWorld χ) := do
  onlyOperator w caller
  pure { w with extension := { w.extension with isRebalancingActive := false } }

def setIsRebalanceOpen (caller : Address) (isRebalanceOpen : Bool) : Result (WeightWorld χ) := do
  onlyOperator w caller
  pure { w with extension := { w.extension with isRebalanceOpen := isRebalanceOpen } }

def setWrapModule (caller wrapModule : Address) : Result (WeightWorld χ) := do
  onlyOperator w caller
  require (w.around.setToken.isPendingModule wrapModule = true) "WrapModuleV2 not pending"
  pure { w with extension := { w.extension with wrapModule := wrapModule } }

end Calls

/-- A call of the extension, or what happens around it: prices move and others act. -/
inductive Action (χ : Type)
  | wrap (caller targetAsset : Address) (reserveUnits : Nat)
  | unwrap (caller targetAsset : Address) (targetUnits : Nat)
  | setTargetWeights (caller reserveAsset : Address) (minReserveWeight maxReserveWeight : Nat)
      (targetAssets : List Address) (params : List TargetWeightWrapParams)
  | pauseRebalance (caller : Address)
  | setIsRebalanceOpen (caller : Address) (isRebalanceOpen : Bool)
  | setWrapModule (caller wrapModule : Address)
  | elsewhere (change : Surroundings χ → Surroundings χ)

def step (decimals : Address → Nat)
    (invokeManager : Address → WrapCall → WeightWorld χ → Result (WeightWorld χ))
    (w : WeightWorld χ) : Action χ → Result (WeightWorld χ)
  | .wrap caller targetAsset units => wrap decimals invokeManager w caller targetAsset units
  | .unwrap caller targetAsset units => unwrap decimals invokeManager w caller targetAsset units
  | .setTargetWeights caller reserveAsset minReserveWeight maxReserveWeight targetAssets params =>
    setTargetWeights w caller reserveAsset minReserveWeight maxReserveWeight targetAssets params
  | .pauseRebalance caller => pauseRebalance w caller
  | .setIsRebalanceOpen caller isRebalanceOpen => setIsRebalanceOpen w caller isRebalanceOpen
  | .setWrapModule caller wrapModule => setWrapModule w caller wrapModule
  | .elsewhere change => pure { w with around := change w.around }

/-! ### What is asked of a rebalance -/

variable {decimals : Address → Nat}
  {invokeManager : Address → WrapCall → WeightWorld χ → Result (WeightWorld χ)}
  {w w' : WeightWorld χ} {caller targetAsset : Address} {units : Nat} {a b : Action χ}

/-- What a wrap leaves: the target is not overweight and the reserve is not underweight. -/
def LeftByWrap (decimals : Address → Nat) (w : WeightWorld χ) (targetAsset : Address) : Prop :=
  ∃ targetAssetWeight reserveWeight,
    getTargetAssetAndReserveWeight decimals w targetAsset =
      .ok (targetAssetWeight, reserveWeight) ∧
    targetAssetWeight ≤ (w.extension.executionParams targetAsset).maxTargetWeight ∧
    w.extension.rebalanceInfo.minReserveWeight ≤ reserveWeight

/-- What an unwrap leaves: the target is not underweight and the reserve is not overweight. -/
def LeftByUnwrap (decimals : Address → Nat) (w : WeightWorld χ) (targetAsset : Address) : Prop :=
  ∃ targetAssetWeight reserveWeight,
    getTargetAssetAndReserveWeight decimals w targetAsset =
      .ok (targetAssetWeight, reserveWeight) ∧
    (w.extension.executionParams targetAsset).minTargetWeight ≤ targetAssetWeight ∧
    reserveWeight ≤ w.extension.rebalanceInfo.maxReserveWeight

/-- What the documentation says of a rebalance: where it starts and where it ends. -/
def Documented (decimals : Address → Nat) (w : WeightWorld χ) (w' : WeightWorld χ) :
    Action χ → Prop
  | .wrap _ targetAsset _ =>
    isReserveOverweight decimals w = .ok true ∧ LeftByWrap decimals w' targetAsset
  | .unwrap _ targetAsset _ =>
    isReserveUnderweight decimals w = .ok true ∧ LeftByUnwrap decimals w' targetAsset
  | _ => True

/-- A wrap is called while the reserve is overweight. -/
def CalledOverweight (decimals : Address → Nat) (w : WeightWorld χ) : Action χ → Prop
  | .wrap _ _ _ => isReserveOverweight decimals w = .ok true
  | _ => True

/-- One rebalance undoes the other. -/
def Opposed : Action χ → Action χ → Prop
  | .wrap _ _ _, .unwrap _ _ _ => True
  | .unwrap _ _ _, .wrap _ _ _ => True
  | _, _ => False

theorem wrap_left (h : wrap decimals invokeManager w caller targetAsset units = .ok w') :
    LeftByWrap decimals w' targetAsset := by
  simp only [wrap, bind_eq_ok, require_eq_ok, exists_const, pure_eq_ok] at h
  obtain ⟨_, _, _, _, ⟨targetAssetWeight, reserveWeight⟩, hweights, htarget, hreserve, rfl⟩ := h
  exact ⟨targetAssetWeight, reserveWeight, hweights, htarget, hreserve⟩

theorem unwrap_left (h : unwrap decimals invokeManager w caller targetAsset units = .ok w') :
    isReserveUnderweight decimals w = .ok true ∧ LeftByUnwrap decimals w' targetAsset := by
  simp only [unwrap, bind_eq_ok, require_eq_ok, exists_const, pure_eq_ok] at h
  obtain ⟨_, _, _, hunderweight, rfl, _, _, ⟨targetAssetWeight, reserveWeight⟩, hweights,
    htarget, hreserve, rfl⟩ := h
  exact ⟨hunderweight, targetAssetWeight, reserveWeight, hweights, htarget, hreserve⟩

/-- Of a rebalance that returns, only the start of a wrap can differ from the documentation. -/
theorem documented_iff (h : step decimals invokeManager w a = .ok w') :
    Documented decimals w w' a ↔ CalledOverweight decimals w a := by
  cases a with
  | wrap caller targetAsset units => exact and_iff_left (wrap_left h)
  | unwrap caller targetAsset units => exact iff_of_true (unwrap_left h) trivial
  | setTargetWeights => exact Iff.rfl
  | pauseRebalance => exact Iff.rfl
  | setIsRebalanceOpen => exact Iff.rfl
  | setWrapModule => exact Iff.rfl
  | elsewhere => exact Iff.rfl

/-! ### Rebalances in a row -/

/-- Both ways to compute the weight of the reserve agree. -/
theorem getReserveWeight_of_weights {targetAssetWeight reserveWeight : Nat}
    (h : getTargetAssetAndReserveWeight decimals w targetAsset =
      .ok (targetAssetWeight, reserveWeight)) : getReserveWeight decimals w = .ok reserveWeight := by
  simp only [getTargetAssetAndReserveWeight, bind_eq_ok, pure_eq_ok, Prod.mk.injEq] at h
  obtain ⟨_, _, reserveValuation, hreserve, totalValuation, htotal, _, _, weight, hweight, _, rfl⟩ := h
  rw [getReserveWeight, hreserve, ok_bind, htotal, ok_bind]
  exact hweight

/-- After a wrap the reserve is not underweight. -/
theorem LeftByWrap.not_underweight (h : LeftByWrap decimals w targetAsset) :
    isReserveUnderweight decimals w = .ok false := by
  obtain ⟨_, reserveWeight, hweights, _, hreserve⟩ := h
  rw [isReserveUnderweight, getReserveWeight_of_weights hweights, ok_bind,
    decide_eq_false (not_lt.mpr hreserve)]
  rfl

/-- After an unwrap the reserve is not overweight. -/
theorem LeftByUnwrap.not_overweight (h : LeftByUnwrap decimals w targetAsset) :
    isReserveOverweight decimals w = .ok false := by
  obtain ⟨_, reserveWeight, hweights, _, hreserve⟩ := h
  rw [isReserveOverweight, getReserveWeight_of_weights hweights, ok_bind,
    decide_eq_false (not_lt.mpr hreserve)]
  rfl

/-- No unwrap follows a wrap, nor a wrap that is called while the reserve is overweight an unwrap. -/
theorem not_opposed {u v : WeightWorld χ} (ha : step decimals invokeManager w a = .ok u)
    (hb : step decimals invokeManager u b = .ok v) (hC : CalledOverweight decimals u b) :
    ¬Opposed a b := by
  intro hopposed
  cases a <;> cases b <;> try exact hopposed
  case wrap.unwrap =>
    have hunderweight := (unwrap_left hb).1
    rw [(wrap_left ha).not_underweight] at hunderweight
    exact Bool.false_ne_true (Except.ok.inj hunderweight)
  case unwrap.wrap =>
    have hoverweight : isReserveOverweight decimals u = .ok true := hC
    rw [(unwrap_left ha).2.not_overweight] at hoverweight
    exact Bool.false_ne_true (Except.ok.inj hoverweight)

/-- **Rebalances go in the needed direction** in a run, and none directly undoes the one before,
exactly if each wrap of the run is called while the reserve is overweight. -/
theorem rebalances_documented_iff {as : List (Action χ)} {u : WeightWorld χ}
    (hrun : runs (step decimals invokeManager) w as = .ok u) :
    (Along (step decimals invokeManager)
        (fun w a => ∀ w', step decimals invokeManager w a = .ok w' → Documented decimals w w' a)
        w as ∧
      as.IsChain fun a b => ¬Opposed a b) ↔
    Along (step decimals invokeManager) (CalledOverweight decimals) w as := by
  have hstep : ∀ w a u, step decimals invokeManager w a = .ok u →
      ((∀ w', step decimals invokeManager w a = .ok w' → Documented decimals w w' a) ↔
        CalledOverweight decimals w a) := by
    intro w a u hu
    constructor
    · exact fun hall => (documented_iff hu).mp (hall u hu)
    · exact fun hC w' hw' => (documented_iff hw').mpr hC
  rw [along_iff hstep hrun]
  exact and_iff_left_of_imp fun halong =>
    runs_isChain (R := fun a b => ¬Opposed a b) (fun _ ha hb hv => not_opposed ha hv hb) halong hrun

/-! ### A reserve between its weights -/

/-- A module that turns units of one component into as many of another. -/
def moveUnits (s : SetToken) (sent received : Address) (units : Nat) : SetToken :=
  let positions := Function.update s.componentPositions sent
    { s.componentPositions sent with virtualUnit := s.defaultPositionVirtualUnit sent - units }
  { s with
    componentPositions := Function.update positions received
      { s.componentPositions received with
        virtualUnit := s.defaultPositionVirtualUnit received + units } }

def exampleModule (_ : Address) : WrapCall → WeightWorld Unit → Result (WeightWorld Unit)
  | .wrap reserveAsset targetAsset units _ _, w =>
    pure { w with around := { w.around with
      setToken := moveUnits w.around.setToken reserveAsset targetAsset units } }
  | .unwrap reserveAsset targetAsset units _ _, w =>
    pure { w with around := { w.around with
      setToken := moveUnits w.around.setToken targetAsset reserveAsset units } }

def exampleController : Controller where
  isInitialized := true
  isSet := fun _ => true
  isFactory := fun _ => false
  isModule := fun _ => true
  fees := fun _ _ => 0
  feeRecipient := 8
  integrationAdapter := fun _ _ => 0

/-- So many percent in the reserve 1, which is to have from 40 to 60, and the rest in the target 2, all
at the price one. Anyone can rebalance. -/
def exampleWorld (percent : Nat) : WeightWorld Unit where
  extension :=
    { wrapModule := 60
      isRebalancingActive := true
      isRebalanceOpen := true
      executionParams := fun _ => ⟨0, 80 * 10 ^ 16, "", [], []⟩
      rebalanceInfo := ⟨1, 40 * 10 ^ 16, 60 * 10 ^ 16, [2]⟩ }
  around :=
    { setToken := .construct 100 [1, 2] [percent * 10 ^ 16, (100 - percent) * 10 ^ 16] [60]
        exampleController 9
      operator := 7
      oracle := ⟨1, fun _ _ => pure (10 ^ 18)⟩
      rest := () }

/-- From 70 percent, a wrap of 20. Then the target is worth twice as much, and ten are unwrapped. -/
def exampleActions : List (Action Unit) :=
  [.wrap 5 2 (20 * 10 ^ 16),
    .elsewhere fun around => { around with
      oracle := ⟨1, fun component _ => pure (if component = 2 then 2 * 10 ^ 18 else 10 ^ 18)⟩ },
    .unwrap 5 2 (10 * 10 ^ 16), .pauseRebalance 7]

theorem rebalances_documented_iff_example :
    ∃ u, runs (step (fun _ => 18) exampleModule) (exampleWorld 70) exampleActions = .ok u ∧
      u.around.setToken.defaultRealUnit 1 = 60 * 10 ^ 16 ∧
      Along (step (fun _ => 18) exampleModule)
        (fun w a => ∀ w', step (fun _ => 18) exampleModule w a = .ok w' →
          Documented (fun _ => 18) w w' a) (exampleWorld 70) exampleActions ∧
      exampleActions.IsChain fun a b => ¬Opposed a b := by
  have hok : (fun u : WeightWorld Unit => u.around.setToken.defaultRealUnit 1) <$>
      runs (step (fun _ => 18) exampleModule) (exampleWorld 70) exampleActions =
        .ok (60 * 10 ^ 16) := by
    decide +kernel
  have hoverweight : isReserveOverweight (fun _ => 18) (exampleWorld 70) = .ok true := by
    decide +kernel
  simp only [map_eq_ok] at hok
  obtain ⟨u, hrun, hunit⟩ := hok
  have hC : Along (step (fun _ => 18) exampleModule) (CalledOverweight fun _ => 18)
      (exampleWorld 70) exampleActions :=
    ⟨hoverweight, fun w _ => along_of_forall (by simp [CalledOverweight]) w⟩
  exact ⟨u, hrun, hunit, (rebalances_documented_iff hrun).mpr hC⟩

/-- At 50 percent a wrap goes through, though the reserve is not overweight. And from 30 percent,
where an unwrap is needed, a wrap directly follows it. -/
theorem wrap_not_overweight :
    (isReserveOverweight (fun _ => 18) (exampleWorld 50) = .ok false ∧
      (wrap (fun _ => 18) exampleModule (exampleWorld 50) 5 2 (10 * 10 ^ 16)).toBool = true) ∧
    (runs (step (fun _ => 18) exampleModule) (exampleWorld 30)
      [.unwrap 5 2 (20 * 10 ^ 16), .wrap 5 2 (10 * 10 ^ 16)]).toBool = true := by
  decide +kernel

end TargetWeightWrapExtension

end IndexProtocol
