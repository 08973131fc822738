import IndexProtocol.SetToken.Creation

/-! The lock of a SetToken, over runs of all its entry points.

A module that locks the SetToken has the privileged functions to itself until it
unlocks. The exclusion rests on the modules too: the locker must stay
initialized, or it could neither act nor unlock. Here every external function
that writes is an entry, called by anybody. What a module does when it is removed
may be privileged calls, but no call of the lock or of the lifecycle of modules. -/
namespace IndexProtocol
open Evm PreciseUnitMath

namespace SetToken

/-- The privileged functions of modules, but for `lock` and `unlock`. -/
inductive PrivilegedCall where
  /-- A call of another contract, which leaves the SetToken alone. -/
  | invoke
  | addComponent (component : Address)
  | removeComponent (component : Address)
  | editDefaultPositionUnit (component : Address) (realUnit : Int)
  | addExternalPositionModule (component positionModule : Address)
  | removeExternalPositionModule (component positionModule : Address)
  | editExternalPositionUnit (component positionModule : Address) (realUnit : Int)
  | editExternalPositionData (component positionModule : Address) (data : List UInt8)
  | editPositionMultiplier (newMultiplier : Int)
  | mint (account : Address) (quantity : Nat)
  | burn (account : Address) (quantity : Nat)

def privileged (s : SetToken) (sender : Address) : PrivilegedCall → Result SetToken
  | .invoke => do
    s.validatePrivileged sender
    pure s
  | .addComponent component => s.addComponent sender component
  | .removeComponent component => s.removeComponent sender component
  | .editDefaultPositionUnit component realUnit =>
    s.editDefaultPositionUnit sender component realUnit
  | .addExternalPositionModule component positionModule =>
    s.addExternalPositionModule sender component positionModule
  | .removeExternalPositionModule component positionModule =>
    s.removeExternalPositionModule sender component positionModule
  | .editExternalPositionUnit component positionModule realUnit =>
    s.editExternalPositionUnit sender component positionModule realUnit
  | .editExternalPositionData component positionModule data =>
    s.editExternalPositionData sender component positionModule data
  | .editPositionMultiplier newMultiplier => s.editPositionMultiplier sender newMultiplier
  | .mint account quantity => s.mint sender account quantity
  | .burn account quantity => s.burn sender account quantity

/-- The external functions that write. -/
inductive Entry where
  | privileged (sender : Address) (c : PrivilegedCall)
  | lock (sender : Address)
  | unlock (sender : Address)
  | addModule (sender module : Address)
  | removeModule (sender module : Address) (callback : List (Address × PrivilegedCall))
  | removePendingModule (sender module : Address)
  | initializeModule (sender : Address)
  | setManager (sender newManager : Address)
  /-- The Controller is another contract, and changes on its own. -/
  | changeController (controller : Controller)

def enter (s : SetToken) : Entry → Result SetToken
  | .privileged sender c => s.privileged sender c
  | .lock sender => s.lock sender
  | .unlock sender => s.unlock sender
  | .addModule sender module => s.addModule sender module
  | .removeModule sender module callback =>
    s.removeModule sender (runs (fun s a => s.privileged a.1 a.2) · callback) module
  | .removePendingModule sender module => s.removePendingModule sender module
  | .initializeModule sender => s.initializeModule sender
  | .setManager sender newManager => s.setManager sender newManager
  | .changeController controller => pure { s with controller := controller }

variable {s t u : SetToken} {sender module : Address}

/-- What decides who may act is unchanged. -/
structure SameAuthority (s t : SetToken) : Prop where
  modules : t.modules = s.modules
  moduleStates : t.moduleStates = s.moduleStates
  isLocked : t.isLocked = s.isLocked
  locker : t.locker = s.locker
  manager : t.manager = s.manager

theorem SameAuthority.refl (s : SetToken) : s.SameAuthority s := ⟨rfl, rfl, rfl, rfl, rfl⟩

theorem SameAuthority.trans (h : s.SameAuthority t) (h' : t.SameAuthority u) : s.SameAuthority u :=
  ⟨h'.modules.trans h.modules, h'.moduleStates.trans h.moduleStates,
    h'.isLocked.trans h.isLocked, h'.locker.trans h.locker, h'.manager.trans h.manager⟩

/-- A privileged call is made by who may make it, and leaves the authority alone. -/
theorem privileged_same {c : PrivilegedCall} (h : s.privileged sender c = .ok t) :
    s.Privileged sender ∧ s.SameAuthority t := by
  cases c with
  | invoke =>
    simp only [privileged, bind_eq_ok, validatePrivileged_eq_ok, exists_const, pure_eq_ok] at h
    obtain ⟨hp, rfl⟩ := h
    exact ⟨hp, .refl s⟩
  | addComponent component =>
    obtain ⟨hp, _, rfl⟩ := addComponent_eq_ok.mp h
    exact ⟨hp, rfl, rfl, rfl, rfl, rfl⟩
  | removeComponent component =>
    obtain ⟨hp, _, _, rfl⟩ := removeComponent_eq_ok.mp h
    exact ⟨hp, rfl, rfl, rfl, rfl, rfl⟩
  | editDefaultPositionUnit component realUnit =>
    obtain ⟨hp, _, _, rfl⟩ := editDefaultPositionUnit_eq_ok.mp h
    exact ⟨hp, rfl, rfl, rfl, rfl, rfl⟩
  | addExternalPositionModule component positionModule =>
    obtain ⟨hp, _, rfl⟩ := addExternalPositionModule_eq_ok.mp h
    exact ⟨hp, rfl, rfl, rfl, rfl, rfl⟩
  | removeExternalPositionModule component positionModule =>
    obtain ⟨hp, _, _, rfl⟩ := removeExternalPositionModule_eq_ok.mp h
    exact ⟨hp, rfl, rfl, rfl, rfl, rfl⟩
  | editExternalPositionUnit component positionModule realUnit =>
    obtain ⟨hp, _, _, rfl⟩ := editExternalPositionUnit_eq_ok.mp h
    exact ⟨hp, rfl, rfl, rfl, rfl, rfl⟩
  | editExternalPositionData component positionModule data =>
    obtain ⟨hp, rfl⟩ := editExternalPositionData_eq_ok.mp h
    exact ⟨hp, rfl, rfl, rfl, rfl, rfl⟩
  | editPositionMultiplier newMultiplier =>
    obtain ⟨hp, _, rfl⟩ := editPositionMultiplier_eq_ok.mp h
    exact ⟨hp, rfl, rfl, rfl, rfl, rfl⟩
  | mint account quantity =>
    obtain ⟨hp, _, _, rfl⟩ := mint_eq_ok.mp h
    exact ⟨hp, rfl, rfl, rfl, rfl, rfl⟩
  | burn account quantity =>
    obtain ⟨hp, _, _, rfl⟩ := burn_eq_ok.mp h
    exact ⟨hp, rfl, rfl, rfl, rfl, rfl⟩

theorem callback_same {callback : List (Address × PrivilegedCall)}
    (h : runs (fun s a => s.privileged a.1 a.2) s callback = .ok t) : s.SameAuthority t :=
  runs_invariant s.SameAuthority (fun _ _ _ hsame hstep => hsame.trans (privileged_same hstep).2)
    (.refl s) h

/-! ### The entries that change who may act -/

theorem lock_eq_ok :
    s.lock sender = .ok t ↔
      s.moduleStates sender = .initialized ∧ s.controller.isModule sender = true ∧
        s.isLocked = false ∧ { s with locker := sender, isLocked := true } = t := by
  simp [lock, validateOnlyModule]

theorem unlock_eq_ok :
    s.unlock sender = .ok t ↔
      s.moduleStates sender = .initialized ∧ s.controller.isModule sender = true ∧
        s.isLocked = true ∧ s.locker = sender ∧ { s with locker := 0, isLocked := false } = t := by
  simp [unlock, validateOnlyModule]

theorem addModule_eq_ok :
    s.addModule sender module = .ok t ↔
      sender = s.manager ∧ s.moduleStates module = .none ∧
        s.controller.isModule module = true ∧ s.setModuleState module .pending = t := by
  simp [addModule, validateOnlyManager]

theorem removePendingModule_eq_ok :
    s.removePendingModule sender module = .ok t ↔
      sender = s.manager ∧ s.isLocked = false ∧ s.moduleStates module = .pending ∧
        s.setModuleState module .none = t := by
  simp [removePendingModule, validateOnlyManager]

theorem initializeModule_eq_ok :
    s.initializeModule sender = .ok t ↔
      s.isLocked = false ∧ s.moduleStates sender = .pending ∧
        { s.setModuleState sender .initialized with modules := s.modules ++ [sender] } = t := by
  simp [initializeModule, setModuleState]

theorem setManager_eq_ok {newManager : Address} :
    s.setManager sender newManager = .ok t ↔
      sender = s.manager ∧ s.isLocked = false ∧ { s with manager := newManager } = t := by
  simp [setManager, validateOnlyManager]

theorem removeModule_eq_ok {callback : SetToken → Result SetToken} :
    s.removeModule sender callback module = .ok t ↔
      sender = s.manager ∧ s.isLocked = false ∧ s.moduleStates module = .initialized ∧
        ∃ u, callback s = .ok u ∧ ∃ modules,
          AddressArrayUtils.removeStorage u.modules module = .ok modules ∧
            { u.setModuleState module .none with modules := modules } = t := by
  simp [removeModule, validateRemoveModule, validateOnlyManager, finishRemoveModule, setModuleState]

/-- The array of modules lists exactly the initialized ones, each once. -/
def ModulesListed (s : SetToken) : Prop := Lists s.modules fun m => s.moduleStates m = .initialized

theorem ModulesListed.of_same (h : s.ModulesListed) (hsame : s.SameAuthority t) :
    t.ModulesListed := by
  rw [ModulesListed, hsame.modules, hsame.moduleStates]
  exact h

/-- A state other than initialized is written for a module that was not initialized. -/
theorem ModulesListed.setModuleState {state : ModuleState} (h : s.ModulesListed)
    (hbefore : s.moduleStates module ≠ .initialized) (hafter : state ≠ .initialized) :
    (s.setModuleState module state).ModulesListed := by
  refine h.keep (a := module) (fun b hb => ?_) ?_
  · simp [SetToken.setModuleState, hb]
  · simp [SetToken.setModuleState, hbefore, hafter]

theorem construct_modulesListed (self : Address) (components : List Address) (units : List Int)
    (modules : List Address) (controller : Controller) (manager : Address) :
    (construct self components units modules controller manager).ModulesListed := by
  refine ⟨List.nodup_nil, fun m => iff_of_false List.not_mem_nil ?_⟩
  -- The loop of the constructor writes pending states only.
  have hloop (states : Address → ModuleState) (hstates : ∀ a, states a ≠ .initialized) :
      ∀ a, modules.foldl (fun states m => Function.update states m .pending) states a ≠
        .initialized := by
    induction modules generalizing states with
    | nil => exact hstates
    | cons module rest ih =>
      refine ih _ fun a => ?_
      by_cases ha : a = module
      · simp [ha]
      · simp [ha, hstates a]
  exact hloop _ (fun _ => by decide) m

/-- Every entry keeps the array in step with the states. -/
theorem enter_modulesListed {e : Entry} (h : s.ModulesListed) (he : s.enter e = .ok t) :
    t.ModulesListed := by
  cases e with
  | privileged sender c => exact h.of_same (privileged_same he).2
  | lock sender =>
    obtain ⟨_, _, _, rfl⟩ := lock_eq_ok.mp he
    exact h
  | unlock sender =>
    obtain ⟨_, _, _, _, rfl⟩ := unlock_eq_ok.mp he
    exact h
  | addModule sender module =>
    obtain ⟨_, hnone, _, rfl⟩ := addModule_eq_ok.mp he
    exact h.setModuleState (by simp [hnone]) (by decide)
  | removeModule sender module callback =>
    simp only [enter] at he
    obtain ⟨_, _, _, u, hu, modules, hremove, rfl⟩ := removeModule_eq_ok.mp he
    have hlisted := h.of_same (callback_same hu)
    obtain ⟨_, hperm⟩ := ArrayUtils.removeStorage_eq_ok hremove
    refine hlisted.remove hperm (fun b hb => ?_) ?_
    · simp [setModuleState, hb]
    · simp [setModuleState]
  | removePendingModule sender module =>
    obtain ⟨_, _, hpending, rfl⟩ := removePendingModule_eq_ok.mp he
    exact h.setModuleState (by simp [hpending]) (by decide)
  | initializeModule sender =>
    obtain ⟨_, hpending, rfl⟩ := initializeModule_eq_ok.mp he
    refine h.push (fun b hb => ?_) ?_ ?_
    · simp [setModuleState, hb]
    · simp [hpending]
    · simp [setModuleState]
  | setManager sender newManager =>
    obtain ⟨_, _, rfl⟩ := setManager_eq_ok.mp he
    exact h
  | changeController controller =>
    obtain rfl := pure_eq_ok.mp he
    exact h

/-! ### While the SetToken is locked -/

/-- Locked by `locker` since the state `s`: the locker is initialized, the manager the same, and
modules have been added at most. -/
structure Held (s : SetToken) (locker : Address) (t : SetToken) : Prop where
  isLocked : t.isLocked = true
  held : t.locker = locker
  initialized : t.moduleStates locker = .initialized
  manager : t.manager = s.manager
  states : ∀ m, t.moduleStates m = s.moduleStates m ∨
    s.moduleStates m = .none ∧ t.moduleStates m = .pending

theorem lock_held {locker : Address} (h : s.lock locker = .ok t) : Held s locker t := by
  obtain ⟨hinitialized, _, _, rfl⟩ := lock_eq_ok.mp h
  exact ⟨rfl, rfl, hinitialized, rfl, fun _ => .inl rfl⟩

theorem Held.of_same {locker : Address} (h : Held s locker t) (hsame : t.SameAuthority u) :
    Held s locker u := by
  refine ⟨hsame.isLocked.trans h.isLocked, hsame.locker.trans h.held, ?_,
    hsame.manager.trans h.manager, ?_⟩
  · rw [hsame.moduleStates]
    exact h.initialized
  · rw [hsame.moduleStates]
    exact h.states

/-- What fails while the SetToken is locked. -/
structure Excluded (locker : Address) (t : SetToken) : Prop where
  privileged : ∀ sender, sender ≠ locker → ∀ c r, t.privileged sender c ≠ .ok r
  lock : ∀ sender r, t.lock sender ≠ .ok r
  unlock : ∀ sender, sender ≠ locker → ∀ r, t.unlock sender ≠ .ok r
  removeModule : ∀ sender callback module r, t.removeModule sender callback module ≠ .ok r
  removePendingModule : ∀ sender module r, t.removePendingModule sender module ≠ .ok r
  initializeModule : ∀ sender r, t.initializeModule sender ≠ .ok r
  setManager : ∀ sender newManager r, t.setManager sender newManager ≠ .ok r

theorem excluded_of_locked (hlocked : t.isLocked = true) : Excluded t.locker t := by
  constructor
  · intro sender hne c r h
    exact hne ((privileged_same h).1.locker hlocked)
  · intro sender r h
    have hunlocked := (lock_eq_ok.mp h).2.2.1
    rw [hlocked] at hunlocked
    cases hunlocked
  · intro sender hne r h
    exact hne (unlock_eq_ok.mp h).2.2.2.1.symm
  · intro sender callback module r h
    have hunlocked := (removeModule_eq_ok.mp h).2.1
    rw [hlocked] at hunlocked
    cases hunlocked
  · intro sender module r h
    have hunlocked := (removePendingModule_eq_ok.mp h).2.1
    rw [hlocked] at hunlocked
    cases hunlocked
  · intro sender r h
    have hunlocked := (initializeModule_eq_ok.mp h).1
    rw [hlocked] at hunlocked
    cases hunlocked
  · intro sender newManager r h
    have hunlocked := (setManager_eq_ok.mp h).2.1
    rw [hlocked] at hunlocked
    cases hunlocked

theorem Held.excluded {locker : Address} (h : Held s locker t) : Excluded locker t :=
  h.held ▸ excluded_of_locked h.isLocked

/-- Every entry but the locker's own `unlock` keeps the SetToken locked. -/
theorem enter_held {locker : Address} {e : Entry} (h : Held s locker t)
    (hne : e ≠ .unlock locker) (he : t.enter e = .ok u) : Held s locker u := by
  have hexcluded := h.excluded
  cases e with
  | privileged sender c => exact h.of_same (privileged_same he).2
  | lock sender => exact absurd he (hexcluded.lock sender u)
  | unlock sender =>
    have hsender : sender ≠ locker := fun heq => hne (heq ▸ rfl)
    exact absurd he (hexcluded.unlock sender hsender u)
  | addModule sender module =>
    obtain ⟨_, hnone, _, rfl⟩ := addModule_eq_ok.mp he
    have hlocker : locker ≠ module := by
      rintro rfl
      rw [h.initialized] at hnone
      cases hnone
    refine ⟨h.isLocked, h.held, ?_, h.manager, fun m => ?_⟩
    · simp [setModuleState, hlocker, h.initialized]
    · by_cases hm : m = module
      · subst hm
        rcases h.states m with hsame | ⟨_, hpending⟩
        · exact .inr ⟨hsame.symm.trans hnone, by simp [setModuleState]⟩
        · rw [hnone] at hpending
          cases hpending
      · simpa [setModuleState, hm] using h.states m
  | removeModule sender module callback =>
    simp only [enter] at he
    exact absurd he (hexcluded.removeModule sender _ module u)
  | removePendingModule sender module =>
    exact absurd he (hexcluded.removePendingModule sender module u)
  | initializeModule sender => exact absurd he (hexcluded.initializeModule sender u)
  | setManager sender newManager => exact absurd he (hexcluded.setManager sender newManager u)
  | changeController controller =>
    obtain rfl := pure_eq_ok.mp he
    exact ⟨h.isLocked, h.held, h.initialized, h.manager, h.states⟩

/-- **The lock theorem.** In every run from construction the array of modules lists exactly the
initialized ones. From the moment a module has locked the SetToken until it unlocks, nobody else's
privileged call succeeds, the locker stays initialized, the manager stays, and modules are added
at most. A locked SetToken cannot be locked, nor unlocked by another. -/
theorem lock_exclusive {self manager : Address} {components modules : List Address}
    {units : List Int} {controller : Controller} {before : List Entry}
    (hbefore : runs enter (construct self components units modules controller manager) before =
      .ok s) :
    s.ModulesListed ∧ (s.isLocked = true → Excluded s.locker s) ∧
      ∀ locker l during t, s.lock locker = .ok l → .unlock locker ∉ during →
        runs enter l during = .ok t →
          t.ModulesListed ∧ Held s locker t ∧ Excluded locker t := by
  have hlisted : s.ModulesListed := runs_invariant ModulesListed (fun _ _ _ => enter_modulesListed)
    (construct_modulesListed self components units modules controller manager) hbefore
  refine ⟨hlisted, excluded_of_locked, fun locker l during t hlock hduring hrun => ?_⟩
  have hlisted' : t.ModulesListed := runs_invariant ModulesListed (fun _ _ _ => enter_modulesListed)
    (enter_modulesListed hlisted (show s.enter (.lock locker) = .ok l from hlock)) hrun
  have hheld := runs_induction (fun t during => Held s locker t ∧ .unlock locker ∉ during)
    (fun t e rest u h he => by
      obtain ⟨hheld, hnot⟩ := h
      rw [List.mem_cons, not_or] at hnot
      exact ⟨enter_held hheld (Ne.symm hnot.1) he, hnot.2⟩) ⟨lock_held hlock, hduring⟩ hrun
  exact ⟨hlisted', hheld.1, hheld.1.excluded⟩

/-! Modules 10 and 11 are initialized, 10 locks, and the manager adds 12. -/

def lockController : Controller where
  isInitialized := true
  isSet := fun _ => true
  isFactory := fun _ => false
  isModule := fun _ => true
  fees := fun _ _ => 0
  feeRecipient := 8
  integrationAdapter := fun _ _ => 0

theorem lock_exclusive_example : ∃ s l t,
    runs enter (construct 20 [1] [10 ^ 18] [10, 11] lockController 9)
      [.initializeModule 10, .initializeModule 11] = .ok s ∧
    s.lock 10 = .ok l ∧ runs enter l [.addModule 9 12, .privileged 10 (.mint 77 5)] = .ok t ∧
    t.totalSupply = 5 ∧ Held s 10 t ∧ Excluded 10 t := by
  have h : (do
      let s ← runs enter (construct 20 [1] [10 ^ 18] [10, 11] lockController 9)
        [.initializeModule 10, .initializeModule 11]
      let l ← s.lock 10
      let t ← runs enter l [.addModule 9 12, .privileged 10 (.mint 77 5)]
      require (t.totalSupply = 5) "") = .ok () := by
    decide +kernel
  simp only [bind_eq_ok, require_eq_ok] at h
  obtain ⟨s, hs, l, hl, t, ht, hsupply⟩ := h
  have hexclusive := (lock_exclusive hs).2.2 10 l _ t hl (by simp) ht
  exact ⟨s, l, t, hs, hl, ht, hsupply, hexclusive.2⟩

end SetToken

end IndexProtocol
