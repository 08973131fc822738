import IndexProtocol.Registry
import IndexProtocol.ModuleBase

/-! The ClaimModule's registry of claims.

A SetToken has a list of reward pools, and for each pool a list of the adapters that claim
from it. A pool is listed while it has adapters. Adapters are named, and a name is
looked up in the integration registry whenever it is used, so that it may stand for
another adapter when it is used again. `module` is this module's address. -/
namespace IndexProtocol
open Evm ModuleBase

namespace ClaimModule

/-- What the module keeps for one SetToken. -/
structure Settings where
  anyoneClaim : Bool
  /-- `rewardPoolList` with `rewardPoolStatus`. -/
  rewardPools : Registry
  /-- `claimSettings` with `claimSettingsStatus`, of each pool. -/
  claims : Address → Registry

def Settings.empty : Settings := ⟨false, .empty, fun _ => .empty⟩

/-- The SetTokens, each with the registry of integrations, and what the module keeps for them. -/
structure ClaimWorld where
  sets : Address → SetToken
  settings : Address → Settings

section Settings
variable (module : Address) (s : SetToken) (c : Settings)

def addClaimTo (rewardPool : Address) (integrationName : String) : Result Settings := do
  let adapter ← getAndValidateAdapter s module integrationName
  let adapters ← (c.claims rewardPool).add "Integration names must be unique" adapter
  let c := { c with claims := Function.update c.claims rewardPool adapters }
  if c.rewardPools.flag rewardPool = false then
    pure { c with rewardPools := c.rewardPools.push rewardPool }
  else pure c

def removeClaimFrom (rewardPool : Address) (integrationName : String) : Result Settings := do
  let adapter ← getAndValidateAdapter s module integrationName
  let adapters ← (c.claims rewardPool).remove AddressArrayUtils.removeStorage
    "Integration must be added" adapter
  let c := { c with claims := Function.update c.claims rewardPool adapters }
  if adapters.list.length = 0 then
    let rewardPools ← c.rewardPools.drop AddressArrayUtils.removeStorage rewardPool
    pure { c with rewardPools := rewardPools }
  else pure c

def validateBatchArrays (rewardPools : List Address) (integrationNames : List String) :
    Result Unit := do
  require (rewardPools.length = integrationNames.length) "Array length mismatch"
  require (0 < rewardPools.length) "Arrays must not be empty"

def batchAddClaimTo (rewardPools : List Address) (integrationNames : List String) :
    Result Settings := do
  validateBatchArrays rewardPools integrationNames
  runs (fun c (rewardPool, integrationName) => addClaimTo module s c rewardPool integrationName)
    c (rewardPools.zip integrationNames)

def batchRemoveClaimFrom (rewardPools : List Address) (integrationNames : List String) :
    Result Settings := do
  validateBatchArrays rewardPools integrationNames
  runs (fun c (rewardPool, integrationName) => removeClaimFrom module s c rewardPool integrationName)
    c (rewardPools.zip integrationNames)

/-- The adapters of every listed pool, and then the pools, lose their flags and their lists. -/
def removeModule : Settings where
  anyoneClaim := false
  claims := c.rewardPools.list.foldl (fun claims rewardPool =>
    Function.update claims rewardPool ⟨[], (claims rewardPool).clearFlags⟩) c.claims
  rewardPools := ⟨[], c.rewardPools.clearFlags⟩

end Settings

section Calls
variable (module : Address) (w : ClaimWorld) (sender setToken : Address)

/-- What the manager of an enabled SetToken changes of its settings. -/
def manage (call : SetToken → Settings → Result Settings) : Result ClaimWorld := do
  let s := w.sets setToken
  validateOnlyManagerAndValidSet s module sender
  let c ← call s (w.settings setToken)
  pure { w with settings := Function.update w.settings setToken c }

def updateAnyoneClaim (anyoneClaim : Bool) : Result ClaimWorld :=
  manage module w sender setToken fun _ c => pure { c with anyoneClaim := anyoneClaim }

def addClaim (rewardPool : Address) (integrationName : String) : Result ClaimWorld :=
  manage module w sender setToken fun s c => addClaimTo module s c rewardPool integrationName

def batchAddClaim (rewardPools : List Address) (integrationNames : List String) :
    Result ClaimWorld :=
  manage module w sender setToken fun s c => batchAddClaimTo module s c rewardPools integrationNames

def removeClaim (rewardPool : Address) (integrationName : String) : Result ClaimWorld :=
  manage module w sender setToken fun s c => removeClaimFrom module s c rewardPool integrationName

def batchRemoveClaim (rewardPools : List Address) (integrationNames : List String) :
    Result ClaimWorld :=
  manage module w sender setToken fun s c =>
    batchRemoveClaimFrom module s c rewardPools integrationNames

/-- The module's `initialize`. -/
def initializeSet (anyoneClaim : Bool) (rewardPools : List Address)
    (integrationNames : List String) : Result ClaimWorld := do
  let s := w.sets setToken
  validateOnlySetManager s sender
  validateOnlyValidAndPendingSet s module
  let c ← batchAddClaimTo module s (w.settings setToken) rewardPools integrationNames
  let s ← s.initializeModule module
  pure ⟨Function.update w.sets setToken s,
    Function.update w.settings setToken { c with anyoneClaim := anyoneClaim }⟩

/-- The manager removes this module from the SetToken, which calls the module's `removeModule`. -/
def removeFromSet : Result ClaimWorld := do
  let s := w.sets setToken
  s.validateRemoveModule sender module
  let c := removeModule (w.settings setToken)
  let s ← s.finishRemoveModule module
  pure ⟨Function.update w.sets setToken s, Function.update w.settings setToken c⟩

end Calls

inductive Action where
  | initializeSet (sender setToken : Address) (anyoneClaim : Bool) (rewardPools : List Address)
      (integrationNames : List String)
  | updateAnyoneClaim (sender setToken : Address) (anyoneClaim : Bool)
  | addClaim (sender setToken rewardPool : Address) (integrationName : String)
  | batchAddClaim (sender setToken : Address) (rewardPools : List Address)
      (integrationNames : List String)
  | removeClaim (sender setToken rewardPool : Address) (integrationName : String)
  | batchRemoveClaim (sender setToken : Address) (rewardPools : List Address)
      (integrationNames : List String)
  | removeModule (sender setToken : Address)
  /-- The SetTokens change, and the adapters that their integration registry has for the names. -/
  | elsewhere (sets : Address → SetToken)

def step (module : Address) (w : ClaimWorld) : Action → Result ClaimWorld
  | .initializeSet sender setToken anyoneClaim rewardPools integrationNames =>
    initializeSet module w sender setToken anyoneClaim rewardPools integrationNames
  | .updateAnyoneClaim sender setToken anyoneClaim =>
    updateAnyoneClaim module w sender setToken anyoneClaim
  | .addClaim sender setToken rewardPool integrationName =>
    addClaim module w sender setToken rewardPool integrationName
  | .batchAddClaim sender setToken rewardPools integrationNames =>
    batchAddClaim module w sender setToken rewardPools integrationNames
  | .removeClaim sender setToken rewardPool integrationName =>
    removeClaim module w sender setToken rewardPool integrationName
  | .batchRemoveClaim sender setToken rewardPools integrationNames =>
    batchRemoveClaim module w sender setToken rewardPools integrationNames
  | .removeModule sender setToken => removeFromSet module w sender setToken
  | .elsewhere sets => pure { w with sets := sets }

/-! ### Lists that match their mappings -/

/-- Both levels match their mappings, and a pool is listed while it has adapters. -/
structure Settings.Consistent (c : Settings) : Prop where
  rewardPools : c.rewardPools.Consistent
  claims : ∀ rewardPool, (c.claims rewardPool).Consistent
  listed : ∀ rewardPool, c.rewardPools.flag rewardPool = true ↔ (c.claims rewardPool).list ≠ []

variable {module : Address} {s : SetToken} {c c' : Settings} {w v : ClaimWorld}

namespace Settings

theorem empty_consistent : empty.Consistent where
  rewardPools := Registry.empty_consistent
  claims := fun _ => Registry.empty_consistent
  listed := fun _ => iff_of_false Bool.false_ne_true (fun h => h rfl)

/-- The adapters of one pool changed, and the pool is listed as they need it. -/
theorem Consistent.update {rewardPool : Address} {adapters pools : Registry} (h : c.Consistent)
    (hadapters : adapters.Consistent) (hpools : pools.Consistent)
    (hoff : ∀ p, p ≠ rewardPool → pools.flag p = c.rewardPools.flag p)
    (hlisted : pools.flag rewardPool = true ↔ adapters.list ≠ []) :
    Consistent ⟨c.anyoneClaim, pools, Function.update c.claims rewardPool adapters⟩ := by
  refine ⟨hpools, fun p => ?_, fun p => ?_⟩
  · show (Function.update c.claims rewardPool adapters p).Consistent
    by_cases hp : p = rewardPool
    · rwa [hp, Function.update_self]
    · rw [Function.update_of_ne hp]
      exact h.claims p
  · show pools.flag p = true ↔ (Function.update c.claims rewardPool adapters p).list ≠ []
    by_cases hp : p = rewardPool
    · rwa [hp, Function.update_self]
    · rw [Function.update_of_ne hp, hoff p hp]
      exact h.listed p

theorem Consistent.addClaimTo {rewardPool : Address} {integrationName : String} (h : c.Consistent)
    (hadd : addClaimTo module s c rewardPool integrationName = .ok c') : c'.Consistent := by
  simp only [ClaimModule.addClaimTo, bind_eq_ok] at hadd
  obtain ⟨adapter, _, adapters, hadapters, hadd⟩ := hadd
  have hconsistent := (h.claims rewardPool).add hadapters
  have hsome : adapters.list ≠ [] := by
    simp only [Registry.add, bind_eq_ok, pure_eq_ok] at hadapters
    obtain ⟨_, _, rfl⟩ := hadapters
    exact List.append_ne_nil_of_right_ne_nil _ (List.cons_ne_nil _ _)
  by_cases hnew : c.rewardPools.flag rewardPool = false
  · rw [if_pos hnew] at hadd
    obtain rfl := pure_eq_ok.mp hadd
    refine h.update hconsistent (h.rewardPools.push hnew) (fun p hp => ?_) ?_
    · exact Function.update_of_ne hp _ _
    · exact iff_of_true (Function.update_self ..) hsome
  · rw [if_neg hnew] at hadd
    obtain rfl := pure_eq_ok.mp hadd
    exact h.update hconsistent h.rewardPools (fun _ _ => rfl)
      (iff_of_true (Bool.eq_true_of_not_eq_false hnew) hsome)

theorem Consistent.removeClaimFrom {rewardPool : Address} {integrationName : String}
    (h : c.Consistent) (hremove : removeClaimFrom module s c rewardPool integrationName = .ok c') :
    c'.Consistent := by
  simp only [ClaimModule.removeClaimFrom, bind_eq_ok] at hremove
  obtain ⟨adapter, _, adapters, hadapters, hremove⟩ := hremove
  have hconsistent := ((h.claims rewardPool).remove Registry.erases_removeStorage hadapters).1
  by_cases hnone : adapters.list.length = 0
  · rw [if_pos hnone] at hremove
    simp only [bind_eq_ok, pure_eq_ok] at hremove
    obtain ⟨pools, hpools, rfl⟩ := hremove
    obtain ⟨hlist, hwithout⟩ := h.rewardPools.drop Registry.erases_removeStorage hpools
    refine h.update hconsistent hlist (fun p hp => ?_) ?_
    · simp only [Registry.drop, bind_eq_ok, pure_eq_ok] at hpools
      obtain ⟨_, _, rfl⟩ := hpools
      exact Function.update_of_ne hp _ _
    · rw [hwithout.1]
      exact iff_of_false Bool.false_ne_true fun hne => hne (List.length_eq_zero_iff.mp hnone)
  · rw [if_neg hnone] at hremove
    obtain rfl := pure_eq_ok.mp hremove
    -- An adapter was removed, so that the pool had one.
    have hlisted : c.rewardPools.flag rewardPool = true := by
      rw [h.listed]
      simp only [Registry.remove, bind_eq_ok, require_eq_ok, exists_const] at hadapters
      have hmem := ((h.claims rewardPool).mem_iff adapter).mpr hadapters.1
      exact List.ne_nil_of_mem hmem
    exact h.update hconsistent h.rewardPools (fun _ _ => rfl)
      (iff_of_true hlisted fun hnil => hnone (List.length_eq_zero_iff.mpr hnil))

/-- Every listed pool loses its adapters. -/
theorem cleared_claims {claims : Address → Registry} (pools : List Address)
    (h : ∀ p, (claims p).Consistent) (p : Address) :
    pools.foldl (fun claims pool => Function.update claims pool ⟨[], (claims pool).clearFlags⟩)
      claims p = if p ∈ pools then .empty else claims p := by
  induction pools generalizing claims with
  | nil => rfl
  | cons pool rest ih =>
    have hpool : Registry.mk [] (claims pool).clearFlags = .empty := (h pool).cleared
    have hrest : ∀ q, (Function.update claims pool .empty q).Consistent := by
      intro q
      by_cases hq : q = pool
      · rw [hq, Function.update_self]
        exact Registry.empty_consistent
      · rw [Function.update_of_ne hq]
        exact h q
    rw [List.foldl_cons, hpool, ih hrest]
    by_cases hp : p = pool
    · rw [hp, Function.update_self, if_pos List.mem_cons_self, ite_self]
    · rw [Function.update_of_ne hp]
      simp [hp]

/-- A removal leaves nothing. -/
theorem Consistent.removeModule (h : c.Consistent) : removeModule c = empty := by
  have hclaims : c.rewardPools.list.foldl (fun claims pool =>
      Function.update claims pool ⟨[], (claims pool).clearFlags⟩) c.claims = fun _ => .empty := by
    funext p
    rw [cleared_claims _ h.claims]
    by_cases hp : p ∈ c.rewardPools.list
    · rw [if_pos hp]
    · rw [if_neg hp]
      refine (h.claims p).eq_empty (not_not.mp fun hsome => hp ?_)
      rw [h.rewardPools.mem_iff, h.listed]
      exact hsome
  rw [ClaimModule.removeModule, h.rewardPools.cleared, hclaims]
  rfl

theorem Consistent.batchAddClaimTo {rewardPools : List Address} {integrationNames : List String}
    (h : c.Consistent) (hadd : batchAddClaimTo module s c rewardPools integrationNames = .ok c') :
    c'.Consistent := by
  simp only [ClaimModule.batchAddClaimTo, bind_eq_ok] at hadd
  obtain ⟨_, _, hadd⟩ := hadd
  exact runs_invariant Consistent (fun _ _ _ h hadd => h.addClaimTo hadd) h hadd

theorem Consistent.batchRemoveClaimFrom {rewardPools : List Address}
    {integrationNames : List String} (h : c.Consistent)
    (hremove : batchRemoveClaimFrom module s c rewardPools integrationNames = .ok c') :
    c'.Consistent := by
  simp only [ClaimModule.batchRemoveClaimFrom, bind_eq_ok] at hremove
  obtain ⟨_, _, hremove⟩ := hremove
  exact runs_invariant Consistent (fun _ _ _ h hremove => h.removeClaimFrom hremove) h hremove

end Settings

/-! ### Runs -/

/-- The settings of one SetToken change. -/
theorem update_consistent {setToken : Address} {settings : Address → Settings}
    (h : ∀ set, (settings set).Consistent) (hc : c.Consistent) (set : Address) :
    (Function.update settings setToken c set).Consistent := by
  by_cases hset : set = setToken
  · rwa [hset, Function.update_self]
  · rw [Function.update_of_ne hset]
    exact h set

theorem manage_consistent {sender setToken : Address}
    {call : SetToken → Settings → Result Settings} (h : ∀ set, (w.settings set).Consistent)
    (hcall : ∀ s c', call s (w.settings setToken) = .ok c' → c'.Consistent)
    (hv : manage module w sender setToken call = .ok v) : ∀ set, (v.settings set).Consistent := by
  simp only [manage, bind_eq_ok, pure_eq_ok] at hv
  obtain ⟨_, _, c', hc', rfl⟩ := hv
  exact update_consistent h (hcall _ c' hc')

theorem removeFromSet_eq {sender setToken : Address}
    (hv : removeFromSet module w sender setToken = .ok v) :
    v.settings = Function.update w.settings setToken (removeModule (w.settings setToken)) := by
  simp only [removeFromSet, bind_eq_ok, pure_eq_ok] at hv
  obtain ⟨_, _, _, _, rfl⟩ := hv
  rfl

theorem step_consistent {a : Action} (h : ∀ set, (w.settings set).Consistent)
    (hstep : step module w a = .ok v) : ∀ set, (v.settings set).Consistent := by
  cases a with
  | initializeSet sender setToken anyoneClaim rewardPools integrationNames =>
    simp only [step, initializeSet, bind_eq_ok, pure_eq_ok] at hstep
    obtain ⟨_, _, _, _, c, hadd, _, _, rfl⟩ := hstep
    have hc := (h setToken).batchAddClaimTo hadd
    exact update_consistent h { hc with }
  | updateAnyoneClaim sender setToken anyoneClaim =>
    rw [step, updateAnyoneClaim] at hstep
    refine manage_consistent h (fun s c' hc => ?_) hstep
    obtain rfl := pure_eq_ok.mp hc
    exact { h setToken with }
  | addClaim sender setToken rewardPool integrationName =>
    rw [step, addClaim] at hstep
    exact manage_consistent h (fun s c' hc => (h setToken).addClaimTo hc) hstep
  | batchAddClaim sender setToken rewardPools integrationNames =>
    rw [step, batchAddClaim] at hstep
    exact manage_consistent h (fun s c' hc => (h setToken).batchAddClaimTo hc) hstep
  | removeClaim sender setToken rewardPool integrationName =>
    rw [step, removeClaim] at hstep
    exact manage_consistent h (fun s c' hc => (h setToken).removeClaimFrom hc) hstep
  | batchRemoveClaim sender setToken rewardPools integrationNames =>
    rw [step, batchRemoveClaim] at hstep
    exact manage_consistent h (fun s c' hc => (h setToken).batchRemoveClaimFrom hc) hstep
  | removeModule sender setToken =>
    rw [removeFromSet_eq hstep]
    refine update_consistent h ?_
    rw [(h setToken).removeModule]
    exact Settings.empty_consistent
  | elsewhere sets =>
    obtain rfl := pure_eq_ok.mp hstep
    exact h

/-- **The registry of claims is consistent.** In every state that the module reaches, whatever the
names stand for at each call, the pools and the adapters of every SetToken are listed once each, as
their mappings say, a pool is listed exactly if it has adapters, and a removal of the module leaves
nothing of the SetToken's settings. -/
theorem claims_consistent {actions : List Action} (hempty : ∀ set, w.settings set = .empty)
    (hrun : runs (step module) w actions = .ok v) :
    (∀ set, (v.settings set).Consistent) ∧
    ∀ sender setToken u, removeFromSet module v sender setToken = .ok u →
      u.settings setToken = .empty := by
  have hstart : ∀ set, (w.settings set).Consistent := by
    intro set
    rw [hempty set]
    exact Settings.empty_consistent
  have hv : ∀ set, (v.settings set).Consistent :=
    runs_invariant (fun u : ClaimWorld => ∀ set, (u.settings set).Consistent)
      (fun _ _ _ h hstep => step_consistent h hstep) hstart hrun
  refine ⟨hv, fun sender setToken u hremove => ?_⟩
  rw [removeFromSet_eq hremove, Function.update_self]
  exact (hv setToken).removeModule

/-! One name, which stands for adapter 70 and then for adapter 71. -/

def exampleSet (state : ModuleState) (adapter : Address) : SetToken where
  self := 100
  erc20 := .empty
  controller :=
    { isInitialized := true
      isSet := fun a => a == 100
      isFactory := fun _ => false
      isModule := fun a => a == 60
      fees := fun _ _ => 0
      feeRecipient := 8
      integrationAdapter := fun _ _ => adapter }
  manager := 9
  locker := 0
  modules := [60]
  moduleStates := fun a => if a = 60 then state else .none
  isLocked := false
  components := []
  componentPositions := fun _ => .empty
  positionMultiplier := 10 ^ 18

def exampleWorld : ClaimWorld := ⟨fun _ => exampleSet .pending 70, fun _ => .empty⟩

def exampleActions : List Action :=
  [.initializeSet 9 100 true [1, 2] ["a", "a"], .elsewhere fun _ => exampleSet .initialized 71,
    .addClaim 9 100 1 "a", .elsewhere fun _ => exampleSet .initialized 70,
    .removeClaim 9 100 1 "a", .removeClaim 9 100 2 "a"]

theorem claims_consistent_example :
    ∃ v u, runs (step 60) exampleWorld exampleActions = .ok v ∧
      (v.settings 100).rewardPools.list = [1] ∧ ((v.settings 100).claims 1).list = [71] ∧
      removeFromSet 60 v 9 100 = .ok u ∧ u.settings 100 = .empty := by
  have h : (do
      let v ← runs (step 60) exampleWorld exampleActions
      let _ ← removeFromSet 60 v 9 100
      require ((v.settings 100).rewardPools.list = [1] ∧ ((v.settings 100).claims 1).list = [71])
        "") = .ok () := by decide +kernel
  simp only [bind_eq_ok, require_eq_ok] at h
  obtain ⟨v, hv, u, hu, hpools, hadapters⟩ := h
  exact ⟨v, u, hv, hpools, hadapters, hu, (claims_consistent (fun _ => rfl) hv).2 9 100 u hu⟩

end ClaimModule

end IndexProtocol
