import IndexProtocol.Registry
import IndexProtocol.Controller
import IndexProtocol.Manager.Upgrades

/-! The registries of the Controller.

Sets, factories, modules and resources are each a list with a mapping, and a resource
has an id besides. The functions that add look whether the address is there. The batch
that starts the contract does not, so what it repeats stays listed after a removal. -/
namespace IndexProtocol
open Evm

namespace Controller

/-- Each registry is an array of the contract with its mapping: `sets` with `isSet`, and so on. -/
structure Registries where
  owner : Address
  isInitialized : Bool
  sets : Registry
  factories : Registry
  modules : Registry
  resources : Registry
  resourceId : Nat → Address

namespace Registries

def construct (owner : Address) : Registries :=
  ⟨owner, false, .empty, .empty, .empty, .empty, fun _ => 0⟩

/-- One step of the loop over the first resources. -/
def markResource (s : (Address → Bool) × (Nat → Address)) (resource : Address × Nat) :
    Result ((Address → Bool) × (Nat → Address)) := do
  let isResource ← Registry.mark s.1 resource.1
  require (s.2 resource.2 = 0) "Resource ID already exists"
  pure (isResource, Function.update s.2 resource.2 resource.1)

section Calls
variable (c : Registries) (sender : Address)

def onlyInitialized : Result Unit :=
  require (c.isInitialized = true) "Contract must be initialized."

def onlyFactory : Result Unit :=
  require (c.factories.flag sender = true) "Only valid factories can call"

def initializeSystem (factories modules resources : List Address) (resourceIds : List Nat) :
    Result Registries := do
  Ownable.onlyOwner c.owner sender
  require (c.isInitialized = false) "Controller is already initialized"
  require (resources.length = resourceIds.length) "Array lengths do not match."
  let factories ← c.factories.load factories
  let modules ← c.modules.load modules
  let (isResource, resourceId) ←
    runs markResource (c.resources.flag, c.resourceId) (resources.zip resourceIds)
  pure { c with
    factories := factories
    modules := modules
    resources := ⟨resources, isResource⟩
    resourceId := resourceId
    isInitialized := true }

def addSet (setToken : Address) : Result Registries := do
  c.onlyInitialized
  c.onlyFactory sender
  let sets ← c.sets.add "Set already exists" setToken
  pure { c with sets := sets }

def removeSet (setToken : Address) : Result Registries := do
  c.onlyInitialized
  Ownable.onlyOwner c.owner sender
  let sets ← c.sets.remove AddressArrayUtils.remove "Set does not exist" setToken
  pure { c with sets := sets }

def addFactory (factory : Address) : Result Registries := do
  c.onlyInitialized
  Ownable.onlyOwner c.owner sender
  let factories ← c.factories.add "Factory already exists" factory
  pure { c with factories := factories }

def removeFactory (factory : Address) : Result Registries := do
  c.onlyInitialized
  Ownable.onlyOwner c.owner sender
  let factories ← c.factories.remove AddressArrayUtils.remove "Factory does not exist" factory
  pure { c with factories := factories }

def addModule (module : Address) : Result Registries := do
  c.onlyInitialized
  Ownable.onlyOwner c.owner sender
  let modules ← c.modules.add "Module already exists" module
  pure { c with modules := modules }

def removeModule (module : Address) : Result Registries := do
  c.onlyInitialized
  Ownable.onlyOwner c.owner sender
  let modules ← c.modules.remove AddressArrayUtils.remove "Module does not exist" module
  pure { c with modules := modules }

def addResource (resource : Address) (id : Nat) : Result Registries := do
  c.onlyInitialized
  Ownable.onlyOwner c.owner sender
  let resources ← c.resources.add "Resource already exists" resource
  require (c.resourceId id = 0) "Resource ID already exists"
  pure { c with resources := resources, resourceId := Function.update c.resourceId id resource }

/-- The id is looked at, and not whether the resource is one. -/
def removeResource (id : Nat) : Result Registries := do
  c.onlyInitialized
  Ownable.onlyOwner c.owner sender
  let resourceToRemove := c.resourceId id
  require (resourceToRemove ≠ 0) "Resource does not exist"
  let resources ← c.resources.drop AddressArrayUtils.remove resourceToRemove
  pure { c with resources := resources, resourceId := Function.update c.resourceId id 0 }

def transferOwnership (newOwner : Address) : Result Registries := do
  let owner ← Ownable.transferOwnership c.owner sender newOwner
  pure { c with owner := owner }

end Calls

inductive Action where
  | initializeSystem (sender : Address) (factories modules resources : List Address)
      (resourceIds : List Nat)
  | addSet (sender setToken : Address)
  | removeSet (sender setToken : Address)
  | addFactory (sender factory : Address)
  | removeFactory (sender factory : Address)
  | addModule (sender module : Address)
  | removeModule (sender module : Address)
  | addResource (sender resource : Address) (id : Nat)
  | removeResource (sender : Address) (id : Nat)
  | transferOwnership (sender newOwner : Address)

def step (c : Registries) : Action → Result Registries
  | .initializeSystem sender factories modules resources resourceIds =>
    c.initializeSystem sender factories modules resources resourceIds
  | .addSet sender setToken => c.addSet sender setToken
  | .removeSet sender setToken => c.removeSet sender setToken
  | .addFactory sender factory => c.addFactory sender factory
  | .removeFactory sender factory => c.removeFactory sender factory
  | .addModule sender module => c.addModule sender module
  | .removeModule sender module => c.removeModule sender module
  | .addResource sender resource id => c.addResource sender resource id
  | .removeResource sender id => c.removeResource sender id
  | .transferOwnership sender newOwner => c.transferOwnership sender newOwner

/-! ### Lists that match their mappings -/

/-- The ids in use point to different addresses with the property. -/
structure Points (listed : Address → Prop) (resourceId : Nat → Address) : Prop where
  listed : ∀ id, resourceId id ≠ 0 → listed (resourceId id)
  inj : ∀ id id', resourceId id ≠ 0 → resourceId id = resourceId id' → id = id'

structure Consistent (c : Registries) : Prop where
  sets : c.sets.Consistent
  factories : c.factories.Consistent
  modules : c.modules.Consistent
  resources : c.resources.Consistent
  ids : Points (· ∈ c.resources.list) c.resourceId

/-- What a call removes is gone. -/
structure Clears (c : Registries) : Prop where
  set : ∀ sender setToken c', c.removeSet sender setToken = .ok c' → c'.sets.Without setToken
  factory : ∀ sender factory c', c.removeFactory sender factory = .ok c' →
    c'.factories.Without factory
  module : ∀ sender module c', c.removeModule sender module = .ok c' → c'.modules.Without module
  resource : ∀ sender id c', c.removeResource sender id = .ok c' →
    c'.resources.Without (c.resourceId id) ∧ c'.resourceId id = 0

/-- The batch that starts the contract repeats no address. -/
def NoRepeats (_ : Registries) : Action → Prop
  | .initializeSystem _ factories modules resources _ =>
    factories.Nodup ∧ modules.Nodup ∧ resources.Nodup
  | _ => True

/-- Before it is started the contract is as deployed. -/
def Blank (c : Registries) : Prop := c.isInitialized = false → c = construct c.owner

variable {c c' : Registries} {sender : Address}

namespace Points
variable {p q : Address → Prop} {ids : Nat → Address} {a : Address} {id : Nat}

theorem none (p : Address → Prop) : Points p fun _ => 0 where
  listed := fun _ h => absurd rfl h
  inj := fun _ _ h => absurd rfl h

theorem imp (hpq : ∀ b, p b → q b) (h : Points p ids) : Points q ids where
  listed := fun id hne => hpq _ (h.listed id hne)
  inj := h.inj

/-- An id for an address that had none. -/
theorem assign (h : Points p ids) (ha : ¬p a) (hpq : ∀ b, p b → q b) (hq : q a) :
    Points q (Function.update ids id a) := by
  constructor
  · intro i hi
    by_cases hid : i = id
    · rwa [hid, Function.update_self]
    · rw [Function.update_of_ne hid] at hi ⊢
      exact hpq _ (h.listed i hi)
  · intro i j hi hij
    by_cases hid : i = id <;> by_cases hjd : j = id
    · rw [hid, hjd]
    · rw [hid, Function.update_self] at hi hij
      rw [Function.update_of_ne hjd] at hij
      exact absurd (hij ▸ h.listed j (hij ▸ hi)) ha
    · rw [Function.update_of_ne hid] at hi hij
      rw [hjd, Function.update_self] at hij
      exact absurd (hij ▸ h.listed i hi) ha
    · rw [Function.update_of_ne hid] at hi hij
      rw [Function.update_of_ne hjd] at hij
      exact h.inj i j hi hij

/-- An id given up, with its address. -/
theorem release (h : Points p ids) (hpq : ∀ b, b ≠ ids id → p b → q b) :
    Points q (Function.update ids id 0) := by
  have hne : ∀ {i}, Function.update ids id 0 i ≠ 0 → i ≠ id := by
    rintro i hi rfl
    exact hi (Function.update_self ..)
  constructor
  · intro i hi
    have hid := hne hi
    rw [Function.update_of_ne hid] at hi ⊢
    exact hpq _ (fun heq => hid (h.inj i id hi heq)) (h.listed i hi)
  · intro i j hi hij
    have hid := hne hi
    have hjd := hne (hij ▸ hi)
    rw [Function.update_of_ne hid] at hi hij
    rw [Function.update_of_ne hjd] at hij
    exact h.inj i j hi hij

end Points

theorem construct_consistent (owner : Address) : (construct owner).Consistent where
  sets := Registry.empty_consistent
  factories := Registry.empty_consistent
  modules := Registry.empty_consistent
  resources := Registry.empty_consistent
  ids := .none _

/-! ### The batch that starts the contract -/

theorem markResource_mark {s s' : (Address → Bool) × (Nat → Address)} {pairs : List (Address × Nat)}
    (h : runs markResource s pairs = .ok s') :
    runs Registry.mark s.1 (pairs.map Prod.fst) = .ok s'.1 := by
  refine runs_map Prod.fst Prod.fst (fun t pair t' ht => ?_) h
  simp only [markResource, bind_eq_ok, pure_eq_ok] at ht
  obtain ⟨flag, hflag, _, _, rfl⟩ := ht
  exact hflag

/-- Resources that are not repeated get different ids. -/
theorem markResource_points {s s' : (Address → Bool) × (Nat → Address)}
    {pairs : List (Address × Nat)} (hs : Points (s.1 · = true) s.2)
    (hnew : ∀ a ∈ pairs.map Prod.fst, s.1 a = false) (hnodup : (pairs.map Prod.fst).Nodup)
    (h : runs markResource s pairs = .ok s') : Points (s'.1 · = true) s'.2 := by
  induction pairs generalizing s with
  | nil =>
    obtain rfl : s = s' := by simpa using h
    exact hs
  | cons pair rest ih =>
    obtain ⟨t, ht, hrest⟩ := (runs_cons_eq_ok _).mp h
    simp only [markResource, Registry.mark, bind_eq_ok, pure_eq_ok] at ht
    obtain ⟨_, ⟨_, _, rfl⟩, _, _, rfl⟩ := ht
    rw [List.map_cons, List.nodup_cons] at hnodup
    have hfirst : ¬s.1 pair.1 = true := by simp [hnew pair.1 List.mem_cons_self]
    have hkeep : ∀ b, s.1 b = true → Function.update s.1 pair.1 true b = true := by
      intro b hb
      by_cases hb' : b = pair.1
      · rw [hb', Function.update_self]
      · rwa [Function.update_of_ne hb']
    have hassigned : Points (Function.update s.1 pair.1 true · = true)
        (Function.update s.2 pair.2 pair.1) := hs.assign hfirst hkeep (Function.update_self ..)
    refine ih hassigned (fun b hb => ?_) hnodup.2 hrest
    have hne : b ≠ pair.1 := by
      rintro rfl
      exact hnodup.1 hb
    show Function.update s.1 pair.1 true b = false
    rw [Function.update_of_ne hne]
    exact hnew b (List.mem_cons_of_mem _ hb)

/-- A contract that was not started before is consistent after it exactly when nothing is repeated. -/
theorem initializeSystem_consistent_iff {owner : Address}
    {factories modules resources : List Address} {resourceIds : List Nat}
    (h : (construct owner).initializeSystem sender factories modules resources resourceIds =
      .ok c') :
    c'.Consistent ↔ factories.Nodup ∧ modules.Nodup ∧ resources.Nodup := by
  simp only [initializeSystem, bind_eq_ok, require_eq_ok, exists_const, pure_eq_ok] at h
  obtain ⟨_, _, _, hlength, f, hf, m, hm, s, hs, rfl⟩ := h
  have hpairs : (resources.zip resourceIds).map Prod.fst = resources :=
    List.map_fst_zip hlength.le
  have hload : Registry.empty.load resources = .ok ⟨resources, s.1⟩ := by
    simp only [Registry.load, bind_eq_ok, pure_eq_ok]
    exact ⟨s.1, hpairs ▸ markResource_mark hs, rfl⟩
  have hfactories := Registry.consistent_load_iff (fun _ => rfl) hf
  have hmodules := Registry.consistent_load_iff (fun _ => rfl) hm
  have hresources := Registry.consistent_load_iff (fun _ => rfl) hload
  constructor
  · intro h
    exact ⟨hfactories.mp h.factories, hmodules.mp h.modules, hresources.mp h.resources⟩
  · rintro ⟨hf, hm, hr⟩
    have hlisted := hresources.mpr hr
    have hpoints : Points (s.1 · = true) s.2 :=
      markResource_points (.none _) (fun _ _ => rfl) (hpairs.symm ▸ hr) hs
    exact ⟨Registry.empty_consistent, hfactories.mpr hf, hmodules.mpr hm, hlisted,
      hpoints.imp fun b hb => (hlisted.mem_iff b).mpr hb⟩

/-! ### Every other call -/

theorem Consistent.addResource {resource : Address} {id : Nat} (h : c.Consistent)
    (hadd : c.addResource sender resource id = .ok c') : c'.Consistent := by
  simp only [Registries.addResource, bind_eq_ok, pure_eq_ok] at hadd
  obtain ⟨_, _, _, _, resources, hresources, _, _, rfl⟩ := hadd
  have hlisted := h.resources.add hresources
  simp only [Registry.add, bind_eq_ok, require_eq_ok, exists_const, pure_eq_ok] at hresources
  obtain ⟨hnew, rfl⟩ := hresources
  refine { h with resources := hlisted, ids := h.ids.assign ?_ (fun b hb => ?_) ?_ }
  · rw [h.resources.mem_iff, hnew]
    decide
  · exact List.mem_append_left _ hb
  · exact List.mem_append_right _ List.mem_cons_self

theorem Consistent.removeResource {id : Nat} (h : c.Consistent)
    (hremove : c.removeResource sender id = .ok c') :
    c'.Consistent ∧ c'.resources.Without (c.resourceId id) ∧ c'.resourceId id = 0 := by
  simp only [Registries.removeResource, bind_eq_ok, pure_eq_ok] at hremove
  obtain ⟨_, _, _, _, _, _, resources, hresources, rfl⟩ := hremove
  obtain ⟨hlisted, hwithout⟩ := h.resources.drop Registry.erases_remove hresources
  refine ⟨{ h with resources := hlisted, ids := h.ids.release fun b hne hb => ?_ }, hwithout,
    Function.update_self ..⟩
  simp only [Registry.drop, bind_eq_ok, pure_eq_ok] at hresources
  obtain ⟨list, hlist, rfl⟩ := hresources
  rw [(Registry.erases_remove hlist).2.mem_iff]
  exact (List.mem_erase_of_ne hne).mpr hb

theorem Consistent.removeSet {setToken : Address} (h : c.Consistent)
    (hremove : c.removeSet sender setToken = .ok c') :
    c'.Consistent ∧ c'.sets.Without setToken := by
  simp only [Registries.removeSet, bind_eq_ok, pure_eq_ok] at hremove
  obtain ⟨_, _, _, _, sets, hsets, rfl⟩ := hremove
  obtain ⟨hlisted, hwithout⟩ := h.sets.remove Registry.erases_remove hsets
  exact ⟨{ h with sets := hlisted }, hwithout⟩

theorem Consistent.removeFactory {factory : Address} (h : c.Consistent)
    (hremove : c.removeFactory sender factory = .ok c') :
    c'.Consistent ∧ c'.factories.Without factory := by
  simp only [Registries.removeFactory, bind_eq_ok, pure_eq_ok] at hremove
  obtain ⟨_, _, _, _, factories, hfactories, rfl⟩ := hremove
  obtain ⟨hlisted, hwithout⟩ := h.factories.remove Registry.erases_remove hfactories
  exact ⟨{ h with factories := hlisted }, hwithout⟩

theorem Consistent.removeModule {module : Address} (h : c.Consistent)
    (hremove : c.removeModule sender module = .ok c') :
    c'.Consistent ∧ c'.modules.Without module := by
  simp only [Registries.removeModule, bind_eq_ok, pure_eq_ok] at hremove
  obtain ⟨_, _, _, _, modules, hmodules, rfl⟩ := hremove
  obtain ⟨hlisted, hwithout⟩ := h.modules.remove Registry.erases_remove hmodules
  exact ⟨{ h with modules := hlisted }, hwithout⟩

theorem Consistent.clears (h : c.Consistent) : c.Clears where
  set := fun _ _ _ hremove => (h.removeSet hremove).2
  factory := fun _ _ _ hremove => (h.removeFactory hremove).2
  module := fun _ _ _ hremove => (h.removeModule hremove).2
  resource := fun _ _ _ hremove => (h.removeResource hremove).2

/-- Only the start of the contract can make a list differ from its mapping. -/
theorem step_consistent_iff {a : Action} (hblank : c.Blank) (h : c.Consistent)
    (hstep : step c a = .ok c') : c'.Consistent ↔ NoRepeats c a := by
  cases a with
  | initializeSystem sender factories modules resources resourceIds =>
    have huninitialized : c.isInitialized = false := by
      simp only [step, initializeSystem, bind_eq_ok, require_eq_ok, exists_const] at hstep
      obtain ⟨_, _, huninitialized, _⟩ := hstep
      exact huninitialized
    rw [step, hblank huninitialized] at hstep
    exact initializeSystem_consistent_iff hstep
  | addSet sender setToken =>
    simp only [step, addSet, bind_eq_ok, pure_eq_ok] at hstep
    obtain ⟨_, _, _, _, sets, hsets, rfl⟩ := hstep
    exact iff_of_true { h with sets := h.sets.add hsets } trivial
  | removeSet sender setToken => exact iff_of_true (h.removeSet hstep).1 trivial
  | addFactory sender factory =>
    simp only [step, addFactory, bind_eq_ok, pure_eq_ok] at hstep
    obtain ⟨_, _, _, _, factories, hfactories, rfl⟩ := hstep
    exact iff_of_true { h with factories := h.factories.add hfactories } trivial
  | removeFactory sender factory => exact iff_of_true (h.removeFactory hstep).1 trivial
  | addModule sender module =>
    simp only [step, addModule, bind_eq_ok, pure_eq_ok] at hstep
    obtain ⟨_, _, _, _, modules, hmodules, rfl⟩ := hstep
    exact iff_of_true { h with modules := h.modules.add hmodules } trivial
  | removeModule sender module => exact iff_of_true (h.removeModule hstep).1 trivial
  | addResource sender resource id => exact iff_of_true (h.addResource hstep) trivial
  | removeResource sender id => exact iff_of_true (h.removeResource hstep).1 trivial
  | transferOwnership sender newOwner =>
    simp only [step, transferOwnership, bind_eq_ok, pure_eq_ok] at hstep
    obtain ⟨_, _, rfl⟩ := hstep
    exact iff_of_true { h with } trivial

/-- A call that returns was made to a contract that is started, starts it or changes its owner. -/
theorem step_started {a : Action} (hstep : step c a = .ok c') :
    c'.isInitialized = true ∨ ∃ newOwner, c' = { c with owner := newOwner } := by
  cases a with
  | initializeSystem sender factories modules resources resourceIds =>
    simp only [step, initializeSystem, bind_eq_ok, pure_eq_ok] at hstep
    obtain ⟨_, _, _, _, _, _, _, _, _, _, _, _, rfl⟩ := hstep
    exact .inl rfl
  | transferOwnership sender newOwner =>
    simp only [step, transferOwnership, bind_eq_ok, pure_eq_ok] at hstep
    obtain ⟨owner, _, rfl⟩ := hstep
    exact .inr ⟨owner, rfl⟩
  | _ =>
    left
    simp only [step, addSet, removeSet, addFactory, removeFactory, addModule, removeModule,
      addResource, removeResource, onlyInitialized, bind_eq_ok, require_eq_ok, exists_const,
      pure_eq_ok] at hstep
    grind

theorem Blank.step {a : Action} (h : c.Blank) (hstep : step c a = .ok c') : c'.Blank := by
  intro huninitialized
  rcases step_started hstep with hstarted | ⟨newOwner, rfl⟩
  · exact absurd (huninitialized.symm.trans hstarted) Bool.false_ne_true
  · rw [h huninitialized]
    rfl

/-- In every state that the Controller reaches its lists match their mappings and what is removed is
gone, exactly if the batch that starts it repeats no address. -/
theorem consistent_iff {owner : Address} {actions : List Action}
    (hrun : runs step (construct owner) actions = .ok c) :
    (∀ n t, runs step (construct owner) (actions.take n) = .ok t → t.Consistent ∧ t.Clears) ↔
      Along step NoRepeats (construct owner) actions := by
  simp only [and_iff_left_of_imp Consistent.clears]
  exact runs_prefixes_iff_of_invariant (I := Consistent) (J := Blank)
    (fun _ _ _ h ht => h.step ht) (fun _ _ _ hblank h ht => step_consistent_iff hblank h ht)
    (construct_consistent owner) (fun _ => rfl) hrun

/-! ### The Controller that the other contracts ask -/

/-- The mappings, as the other contracts read them. -/
structure Shows (c : Registries) (controller : Controller) : Prop where
  isInitialized : controller.isInitialized = c.isInitialized
  isSet : controller.isSet = c.sets.flag
  isFactory : controller.isFactory = c.factories.flag
  isModule : controller.isModule = c.modules.flag

/-- A SetToken that a factory adds is added for them. -/
theorem Shows.addSet {controller : Controller} {setToken : Address} (h : c.Shows controller)
    (hadd : c.addSet sender setToken = .ok c') :
    ∃ controller', controller.addSet sender setToken = .ok controller' ∧
      c'.Shows controller' := by
  simp only [Registries.addSet, onlyInitialized, onlyFactory, Registry.add, bind_eq_ok,
    require_eq_ok, exists_const, pure_eq_ok] at hadd
  obtain ⟨hinitialized, hfactory, _, ⟨hnew, rfl⟩, rfl⟩ := hadd
  rw [← h.isInitialized] at hinitialized
  rw [← h.isFactory] at hfactory
  rw [← h.isSet] at hnew
  refine ⟨{ controller with isSet := Function.update controller.isSet setToken true }, ?_,
    { h with isSet := ?_ }⟩
  · simp only [Controller.addSet, bind_eq_ok, require_eq_ok, exists_const, pure_eq_ok]
    exact ⟨hinitialized, hfactory, hnew, trivial⟩
  · show Function.update controller.isSet setToken true = _
    rw [h.isSet]
    rfl

end Registries

end Controller

end IndexProtocol
