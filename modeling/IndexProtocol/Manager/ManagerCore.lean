import IndexProtocol.Controller.Registries

/-! The registries of the ManagerCore.

Extensions, factories and managers are kept as the Controller keeps its own, and start
the same way. -/
namespace IndexProtocol
open Evm

/-- Each registry is an array of the contract with its mapping. -/
structure ManagerCore where
  owner : Address
  isInitialized : Bool
  extensions : Registry
  factories : Registry
  managers : Registry

namespace ManagerCore

def construct (owner : Address) : ManagerCore := ⟨owner, false, .empty, .empty, .empty⟩

section Calls
variable (m : ManagerCore) (sender : Address)

def onlyInitialized : Result Unit :=
  require (m.isInitialized = true) "Contract must be initialized."

def onlyFactory : Result Unit :=
  require (m.factories.flag sender = true) "Only valid factories can call"

def initializeCore (extensions factories : List Address) : Result ManagerCore := do
  Ownable.onlyOwner m.owner sender
  require (m.isInitialized = false) "ManagerCore is already initialized"
  let extensions ← m.extensions.load extensions
  let factories ← m.factories.load factories
  pure { m with extensions := extensions, factories := factories, isInitialized := true }

def addExtension (extension : Address) : Result ManagerCore := do
  m.onlyInitialized
  Ownable.onlyOwner m.owner sender
  let extensions ← m.extensions.addNonzero "Extension already exists" extension
  pure { m with extensions := extensions }

def removeExtension (extension : Address) : Result ManagerCore := do
  m.onlyInitialized
  Ownable.onlyOwner m.owner sender
  let extensions ←
    m.extensions.remove AddressArrayUtils.removeStorage "Extension does not exist" extension
  pure { m with extensions := extensions }

def addFactory (factory : Address) : Result ManagerCore := do
  m.onlyInitialized
  Ownable.onlyOwner m.owner sender
  let factories ← m.factories.addNonzero "Factory already exists" factory
  pure { m with factories := factories }

def removeFactory (factory : Address) : Result ManagerCore := do
  m.onlyInitialized
  Ownable.onlyOwner m.owner sender
  let factories ←
    m.factories.remove AddressArrayUtils.removeStorage "Factory does not exist" factory
  pure { m with factories := factories }

def addManager (manager : Address) : Result ManagerCore := do
  m.onlyInitialized
  m.onlyFactory sender
  let managers ← m.managers.add "Manager already exists" manager
  pure { m with managers := managers }

def removeManager (manager : Address) : Result ManagerCore := do
  m.onlyInitialized
  Ownable.onlyOwner m.owner sender
  let managers ←
    m.managers.remove AddressArrayUtils.removeStorage "Manager does not exist" manager
  pure { m with managers := managers }

def transferOwnership (newOwner : Address) : Result ManagerCore := do
  let owner ← Ownable.transferOwnership m.owner sender newOwner
  pure { m with owner := owner }

end Calls

inductive Action where
  | initializeCore (sender : Address) (extensions factories : List Address)
  | addExtension (sender extension : Address)
  | removeExtension (sender extension : Address)
  | addFactory (sender factory : Address)
  | removeFactory (sender factory : Address)
  | addManager (sender manager : Address)
  | removeManager (sender manager : Address)
  | transferOwnership (sender newOwner : Address)

def step (m : ManagerCore) : Action → Result ManagerCore
  | .initializeCore sender extensions factories => m.initializeCore sender extensions factories
  | .addExtension sender extension => m.addExtension sender extension
  | .removeExtension sender extension => m.removeExtension sender extension
  | .addFactory sender factory => m.addFactory sender factory
  | .removeFactory sender factory => m.removeFactory sender factory
  | .addManager sender manager => m.addManager sender manager
  | .removeManager sender manager => m.removeManager sender manager
  | .transferOwnership sender newOwner => m.transferOwnership sender newOwner

/-! ### Lists that match their mappings -/

structure Consistent (m : ManagerCore) : Prop where
  extensions : m.extensions.Consistent
  factories : m.factories.Consistent
  managers : m.managers.Consistent

/-- What a call removes is gone. -/
structure Clears (m : ManagerCore) : Prop where
  extension : ∀ sender extension m', m.removeExtension sender extension = .ok m' →
    m'.extensions.Without extension
  factory : ∀ sender factory m', m.removeFactory sender factory = .ok m' →
    m'.factories.Without factory
  manager : ∀ sender manager m', m.removeManager sender manager = .ok m' →
    m'.managers.Without manager

/-- The batch that starts the contract repeats no address. -/
def NoRepeats (_ : ManagerCore) : Action → Prop
  | .initializeCore _ extensions factories => extensions.Nodup ∧ factories.Nodup
  | _ => True

/-- Before it is started the contract is as deployed. -/
def Blank (m : ManagerCore) : Prop := m.isInitialized = false → m = construct m.owner

variable {m m' : ManagerCore} {sender : Address}

theorem construct_consistent (owner : Address) : (construct owner).Consistent :=
  ⟨Registry.empty_consistent, Registry.empty_consistent, Registry.empty_consistent⟩

theorem initializeCore_consistent_iff {owner : Address} {extensions factories : List Address}
    (h : (construct owner).initializeCore sender extensions factories = .ok m') :
    m'.Consistent ↔ extensions.Nodup ∧ factories.Nodup := by
  simp only [initializeCore, bind_eq_ok, pure_eq_ok] at h
  obtain ⟨_, _, _, _, e, he, f, hf, rfl⟩ := h
  have hextensions := Registry.consistent_load_iff (fun _ => rfl) he
  have hfactories := Registry.consistent_load_iff (fun _ => rfl) hf
  constructor
  · intro h
    exact ⟨hextensions.mp h.extensions, hfactories.mp h.factories⟩
  · rintro ⟨he, hf⟩
    exact ⟨hextensions.mpr he, hfactories.mpr hf, Registry.empty_consistent⟩

theorem Consistent.removeExtension {extension : Address} (h : m.Consistent)
    (hremove : m.removeExtension sender extension = .ok m') :
    m'.Consistent ∧ m'.extensions.Without extension := by
  simp only [ManagerCore.removeExtension, bind_eq_ok, pure_eq_ok] at hremove
  obtain ⟨_, _, _, _, extensions, hextensions, rfl⟩ := hremove
  obtain ⟨hlisted, hwithout⟩ := h.extensions.remove Registry.erases_removeStorage hextensions
  exact ⟨{ h with extensions := hlisted }, hwithout⟩

theorem Consistent.removeFactory {factory : Address} (h : m.Consistent)
    (hremove : m.removeFactory sender factory = .ok m') :
    m'.Consistent ∧ m'.factories.Without factory := by
  simp only [ManagerCore.removeFactory, bind_eq_ok, pure_eq_ok] at hremove
  obtain ⟨_, _, _, _, factories, hfactories, rfl⟩ := hremove
  obtain ⟨hlisted, hwithout⟩ := h.factories.remove Registry.erases_removeStorage hfactories
  exact ⟨{ h with factories := hlisted }, hwithout⟩

theorem Consistent.removeManager {manager : Address} (h : m.Consistent)
    (hremove : m.removeManager sender manager = .ok m') :
    m'.Consistent ∧ m'.managers.Without manager := by
  simp only [ManagerCore.removeManager, bind_eq_ok, pure_eq_ok] at hremove
  obtain ⟨_, _, _, _, managers, hmanagers, rfl⟩ := hremove
  obtain ⟨hlisted, hwithout⟩ := h.managers.remove Registry.erases_removeStorage hmanagers
  exact ⟨{ h with managers := hlisted }, hwithout⟩

theorem Consistent.clears (h : m.Consistent) : m.Clears where
  extension := fun _ _ _ hremove => (h.removeExtension hremove).2
  factory := fun _ _ _ hremove => (h.removeFactory hremove).2
  manager := fun _ _ _ hremove => (h.removeManager hremove).2

/-- Only the start of the contract can make a list differ from its mapping. -/
theorem step_consistent_iff {a : Action} (hblank : m.Blank) (h : m.Consistent)
    (hstep : step m a = .ok m') : m'.Consistent ↔ NoRepeats m a := by
  cases a with
  | initializeCore sender extensions factories =>
    have huninitialized : m.isInitialized = false := by
      simp only [step, initializeCore, bind_eq_ok, require_eq_ok, exists_const] at hstep
      obtain ⟨_, _, huninitialized, _⟩ := hstep
      exact huninitialized
    rw [step, hblank huninitialized] at hstep
    exact initializeCore_consistent_iff hstep
  | addExtension sender extension =>
    simp only [step, addExtension, bind_eq_ok, pure_eq_ok] at hstep
    obtain ⟨_, _, _, _, extensions, hextensions, rfl⟩ := hstep
    exact iff_of_true { h with extensions := h.extensions.addNonzero hextensions } trivial
  | removeExtension sender extension => exact iff_of_true (h.removeExtension hstep).1 trivial
  | addFactory sender factory =>
    simp only [step, addFactory, bind_eq_ok, pure_eq_ok] at hstep
    obtain ⟨_, _, _, _, factories, hfactories, rfl⟩ := hstep
    exact iff_of_true { h with factories := h.factories.addNonzero hfactories } trivial
  | removeFactory sender factory => exact iff_of_true (h.removeFactory hstep).1 trivial
  | addManager sender manager =>
    simp only [step, addManager, bind_eq_ok, pure_eq_ok] at hstep
    obtain ⟨_, _, _, _, managers, hmanagers, rfl⟩ := hstep
    exact iff_of_true { h with managers := h.managers.add hmanagers } trivial
  | removeManager sender manager => exact iff_of_true (h.removeManager hstep).1 trivial
  | transferOwnership sender newOwner =>
    simp only [step, transferOwnership, bind_eq_ok, pure_eq_ok] at hstep
    obtain ⟨_, _, rfl⟩ := hstep
    exact iff_of_true { h with } trivial

/-- A call that returns was made to a contract that is started, starts it or changes its owner. -/
theorem step_started {a : Action} (hstep : step m a = .ok m') :
    m'.isInitialized = true ∨ ∃ newOwner, m' = { m with owner := newOwner } := by
  cases a with
  | initializeCore sender extensions factories =>
    simp only [step, initializeCore, bind_eq_ok, pure_eq_ok] at hstep
    obtain ⟨_, _, _, _, _, _, _, _, rfl⟩ := hstep
    exact .inl rfl
  | transferOwnership sender newOwner =>
    simp only [step, transferOwnership, bind_eq_ok, pure_eq_ok] at hstep
    obtain ⟨owner, _, rfl⟩ := hstep
    exact .inr ⟨owner, rfl⟩
  | _ =>
    left
    simp only [step, addExtension, removeExtension, addFactory, removeFactory, addManager,
      removeManager, onlyInitialized, bind_eq_ok, require_eq_ok, exists_const, pure_eq_ok] at hstep
    grind

theorem Blank.step {a : Action} (h : m.Blank) (hstep : step m a = .ok m') : m'.Blank := by
  intro huninitialized
  rcases step_started hstep with hstarted | ⟨newOwner, rfl⟩
  · exact absurd (huninitialized.symm.trans hstarted) Bool.false_ne_true
  · rw [h huninitialized]
    rfl

/-- In every state that the ManagerCore reaches its lists match their mappings and what is removed
is gone, exactly if the batch that starts it repeats no address. -/
theorem consistent_iff {owner : Address} {actions : List Action}
    (hrun : runs step (construct owner) actions = .ok m) :
    (∀ n t, runs step (construct owner) (actions.take n) = .ok t → t.Consistent ∧ t.Clears) ↔
      Along step NoRepeats (construct owner) actions := by
  simp only [and_iff_left_of_imp Consistent.clears]
  exact runs_prefixes_iff_of_invariant (I := Consistent) (J := Blank)
    (fun _ _ _ h ht => h.step ht) (fun _ _ _ hblank h ht => step_consistent_iff hblank h ht)
    (construct_consistent owner) (fun _ => rfl) hrun

end ManagerCore

/-- **The registries match their mappings** in every state that the Controller and the ManagerCore
reach, and what is removed is gone, exactly if the batches that start them repeat no address. -/
theorem registries_consistent_iff {owner coreOwner : Address}
    {actions : List Controller.Registries.Action} {coreActions : List ManagerCore.Action}
    {c : Controller.Registries} {m : ManagerCore}
    (hrun : runs Controller.Registries.step (.construct owner) actions = .ok c)
    (hcore : runs ManagerCore.step (.construct coreOwner) coreActions = .ok m) :
    ((∀ n t, runs Controller.Registries.step (.construct owner) (actions.take n) = .ok t →
        t.Consistent ∧ t.Clears) ↔
      Along Controller.Registries.step Controller.Registries.NoRepeats (.construct owner) actions) ∧
    ((∀ n t, runs ManagerCore.step (.construct coreOwner) (coreActions.take n) = .ok t →
        t.Consistent ∧ t.Clears) ↔
      Along ManagerCore.step ManagerCore.NoRepeats (.construct coreOwner) coreActions) :=
  ⟨Controller.Registries.consistent_iff hrun, ManagerCore.consistent_iff hcore⟩

/-- Modules added, removed and added again, and a resource given another id. -/
theorem registries_consistent_example :
    ∃ c : Controller.Registries, c.modules.list = [6, 5] ∧ c.resourceId 3 = 8 ∧ c.Consistent := by
  have h : (do
      let c ← runs Controller.Registries.step (.construct 1)
        [.initializeSystem 1 [2] [5, 6] [8] [0], .removeModule 1 5, .addModule 1 5,
          .removeResource 1 0, .addResource 1 8 3]
      let _ ← runs ManagerCore.step (.construct 1) [.initializeCore 1 [5] [2], .addManager 2 9]
      require (c.modules.list = [6, 5] ∧ c.resourceId 3 = 8) "") = .ok () := by decide +kernel
  simp only [bind_eq_ok, require_eq_ok] at h
  obtain ⟨c, hrun, m, hcore, hmodules, hid⟩ := h
  refine ⟨c, hmodules, hid, ?_⟩
  exact (((registries_consistent_iff hrun hcore).1.mpr
    (along_of_forall (by simp [Controller.Registries.NoRepeats]) _)) 5 c hrun).1

/-- A module in the first batch twice is listed twice, and still listed once it is removed. -/
theorem repeated_module_stays_listed :
    ∃ c c', runs Controller.Registries.step (.construct 1)
        [.initializeSystem 1 [] [5, 5] [] []] = .ok c ∧
      c.modules.flag 5 = true ∧ c.modules.list.count 5 ≠ 1 ∧
      c.removeModule 1 5 = .ok c' ∧ c'.modules.flag 5 = false ∧ 5 ∈ c'.modules.list := by
  have h : (do
      let c ← runs Controller.Registries.step (.construct 1)
        [.initializeSystem 1 [] [5, 5] [] []]
      let c' ← c.removeModule 1 5
      require (c.modules.flag 5 = true ∧ c.modules.list.count 5 ≠ 1 ∧
        c'.modules.flag 5 = false ∧ 5 ∈ c'.modules.list) "") = .ok () := by decide +kernel
  simp only [bind_eq_ok, require_eq_ok] at h
  obtain ⟨c, hrun, c', hremove, hflag, hcount, hflag', hmem⟩ := h
  exact ⟨c, c', hrun, hflag, hcount, hremove, hflag', hmem⟩

end IndexProtocol
