import IndexProtocol.Registry
import IndexProtocol.Manager.Upgrades

/-! Who may do what with a DelegatedManager.

The owner keeps lists of extensions, operators and assets, which grow and shrink by
arrays. An extension that was added is pending until it initializes itself, and only then
listed. A removal of extensions calls each of them in turn, and what is called may make
calls of its own, so that a removal is not one step: it starts, goes on after each
answer, and others act in between. -/
namespace IndexProtocol
open Evm

inductive ExtensionState where
  | none
  | pending
  | initialized
  deriving DecidableEq, Repr

namespace DelegatedManager

/-- The operators and the assets are each an array of the contract with its mapping. -/
structure Permissions where
  setToken : Address
  owner : Address
  extensionAllowlist : Address → ExtensionState
  extensions : List Address
  operators : Registry
  allowedAssets : Registry
  useAssetAllowlist : Bool

namespace Permissions

section Loops
variable (m : Permissions)

/-- One step of `_addExtensions`. -/
def addExtension (extension : Address) : Result Permissions := do
  require (m.extensionAllowlist extension = .none) "Extension already exists"
  pure { m with
    extensionAllowlist := Function.update m.extensionAllowlist extension .pending }

/-- One step of the removal, until the extension is called. -/
def removeExtension (extension : Address) : Result Permissions := do
  require (m.extensionAllowlist extension = .initialized) "Extension not initialized"
  let extensions ← AddressArrayUtils.removeStorage m.extensions extension
  pure { m with
    extensions := extensions
    extensionAllowlist := Function.update m.extensionAllowlist extension .none }

def addAll (extensions operators allowedAssets : List Address) : Result Permissions := do
  let m ← runs addExtension m extensions
  let operators ← runs (·.add "Operator already added") m.operators operators
  let allowedAssets ← runs (·.add "Asset already added") m.allowedAssets allowedAssets
  pure { m with operators := operators, allowedAssets := allowedAssets }

end Loops

/-- By an account that becomes the owner. -/
def construct (setToken owner : Address) (extensions operators allowedAssets : List Address)
    (useAssetAllowlist : Bool) : Result Permissions :=
  addAll ⟨setToken, owner, fun _ => .none, [], .empty, .empty, useAssetAllowlist⟩
    extensions operators allowedAssets

section Calls
variable (m : Permissions) (sender : Address)

def onlyExtension : Result Unit :=
  require (m.extensionAllowlist sender = .initialized) "Must be initialized extension"

/-- `functionCall` is what the call of the module does. -/
def interactManager (module : Address) (functionCall : Result Unit) : Result Unit := do
  m.onlyExtension sender
  require (module ≠ m.setToken) "Extensions cannot call SetToken"
  functionCall

def initializeExtension : Result Permissions := do
  require (m.extensionAllowlist sender = .pending) "Extension must be pending"
  pure { m with
    extensionAllowlist := Function.update m.extensionAllowlist sender .initialized
    extensions := m.extensions ++ [sender] }

def addExtensions (extensions : List Address) : Result Permissions := do
  Ownable.onlyOwner m.owner sender
  runs addExtension m extensions

/-- Where the extensions answer without calls of their own. -/
def removeExtensions (extensions : List Address) : Result Permissions := do
  Ownable.onlyOwner m.owner sender
  runs removeExtension m extensions

def addOperators (operators : List Address) : Result Permissions := do
  Ownable.onlyOwner m.owner sender
  let operators ← runs (·.add "Operator already added") m.operators operators
  pure { m with operators := operators }

def removeOperators (operators : List Address) : Result Permissions := do
  Ownable.onlyOwner m.owner sender
  let operators ← runs
    (·.remove AddressArrayUtils.removeStorage "Operator not already added") m.operators operators
  pure { m with operators := operators }

def addAllowedAssets (assets : List Address) : Result Permissions := do
  Ownable.onlyOwner m.owner sender
  let allowedAssets ← runs (·.add "Asset already added") m.allowedAssets assets
  pure { m with allowedAssets := allowedAssets }

def removeAllowedAssets (assets : List Address) : Result Permissions := do
  Ownable.onlyOwner m.owner sender
  let allowedAssets ← runs
    (·.remove AddressArrayUtils.removeStorage "Asset not already added") m.allowedAssets assets
  pure { m with allowedAssets := allowedAssets }

def updateUseAssetAllowlist (useAssetAllowlist : Bool) : Result Permissions := do
  Ownable.onlyOwner m.owner sender
  pure { m with useAssetAllowlist := useAssetAllowlist }

def transferOwnership (newOwner : Address) : Result Permissions := do
  let owner ← Ownable.transferOwnership m.owner sender newOwner
  pure { m with owner := owner }

def isAllowedAsset (asset : Address) : Bool := !m.useAssetAllowlist || m.allowedAssets.flag asset

end Calls

/-- The contract while removals of extensions are under way: what each has still to remove, the
innermost first. `removed` are the extensions that were removed and not added since. -/
structure Session where
  manager : Permissions
  removals : List (List Address)
  removed : List Address

inductive Action where
  | initializeExtension (sender : Address)
  | addExtensions (sender : Address) (extensions : List Address)
  /-- A removal starts. -/
  | removeExtensions (sender : Address) (extensions : List Address)
  /-- The innermost removal goes on to its next extension, or returns. -/
  | goOn
  | addOperators (sender : Address) (operators : List Address)
  | removeOperators (sender : Address) (operators : List Address)
  | addAllowedAssets (sender : Address) (assets : List Address)
  | removeAllowedAssets (sender : Address) (assets : List Address)
  | updateUseAssetAllowlist (sender : Address) (useAssetAllowlist : Bool)
  | transferOwnership (sender newOwner : Address)

/-- A call that is one step. -/
def Session.call (s : Session) (call : Permissions → Result Permissions) : Result Session := do
  let m ← call s.manager
  pure { s with manager := m }

def step (s : Session) : Action → Result Session
  | .initializeExtension sender => s.call (·.initializeExtension sender)
  | .addExtensions sender extensions => do
    let s ← s.call (·.addExtensions sender extensions)
    pure { s with removed := s.removed.filter (· ∉ extensions) }
  | .removeExtensions sender extensions => do
    Ownable.onlyOwner s.manager.owner sender
    pure { s with removals := extensions :: s.removals }
  | .goOn =>
    match s.removals with
    | [] => revert "No removal"
    | [] :: outer => pure { s with removals := outer }
    | (extension :: rest) :: outer => do
      let m ← s.manager.removeExtension extension
      pure ⟨m, rest :: outer, extension :: s.removed⟩
  | .addOperators sender operators => s.call (·.addOperators sender operators)
  | .removeOperators sender operators => s.call (·.removeOperators sender operators)
  | .addAllowedAssets sender assets => s.call (·.addAllowedAssets sender assets)
  | .removeAllowedAssets sender assets => s.call (·.removeAllowedAssets sender assets)
  | .updateUseAssetAllowlist sender useAssetAllowlist =>
    s.call (·.updateUseAssetAllowlist sender useAssetAllowlist)
  | .transferOwnership sender newOwner => s.call (·.transferOwnership sender newOwner)

/-! ### Lists that match their mappings -/

structure Consistent (m : Permissions) : Prop where
  extensions : Lists m.extensions (m.extensionAllowlist · = .initialized)
  operators : m.operators.Consistent
  allowedAssets : m.allowedAssets.Consistent

/-- What a call removes is gone. -/
structure Clears (m : Permissions) : Prop where
  extensions : ∀ sender extensions m', m.removeExtensions sender extensions = .ok m' →
    ∀ extension ∈ extensions, m'.extensionAllowlist extension = .none
  operators : ∀ sender operators m', m.removeOperators sender operators = .ok m' →
    ∀ operator ∈ operators, m'.operators.Without operator
  assets : ∀ sender assets m', m.removeAllowedAssets sender assets = .ok m' →
    ∀ asset ∈ assets, m'.allowedAssets.Without asset

variable {m m' : Permissions} {s s' : Session} {sender extension : Address}

theorem Consistent.addExtension (h : m.Consistent) (hadd : m.addExtension extension = .ok m') :
    m'.Consistent := by
  simp only [Permissions.addExtension, bind_eq_ok, require_eq_ok, exists_const, pure_eq_ok] at hadd
  obtain ⟨hnone, rfl⟩ := hadd
  refine { h with extensions := h.extensions.keep (a := extension) (fun b hb => ?_) ?_ }
  · show Function.update m.extensionAllowlist extension .pending b = .initialized ↔ _
    rw [Function.update_of_ne hb]
  · show Function.update m.extensionAllowlist extension .pending extension = .initialized ↔ _
    rw [Function.update_self, hnone]
    decide

theorem Consistent.initializeExtension (h : m.Consistent)
    (hinit : m.initializeExtension sender = .ok m') : m'.Consistent := by
  simp only [Permissions.initializeExtension, bind_eq_ok, require_eq_ok, exists_const,
    pure_eq_ok] at hinit
  obtain ⟨hpending, rfl⟩ := hinit
  refine { h with extensions := h.extensions.push (fun b hb => ?_) ?_ (Function.update_self ..) }
  · show Function.update m.extensionAllowlist sender .initialized b = .initialized ↔ _
    rw [Function.update_of_ne hb]
  · rw [hpending]
    decide

theorem Consistent.removeExtension (h : m.Consistent)
    (hremove : m.removeExtension extension = .ok m') : m'.Consistent := by
  simp only [Permissions.removeExtension, bind_eq_ok, pure_eq_ok] at hremove
  obtain ⟨_, _, extensions, hextensions, rfl⟩ := hremove
  have herased := (Registry.erases_removeStorage hextensions).2
  refine { h with extensions := h.extensions.remove herased (fun b hb => ?_) ?_ }
  · show Function.update m.extensionAllowlist extension .none b = .initialized ↔ _
    rw [Function.update_of_ne hb]
  · show ¬Function.update m.extensionAllowlist extension .none extension = .initialized
    rw [Function.update_self]
    decide

theorem Consistent.addAll {extensions operators allowedAssets : List Address} (h : m.Consistent)
    (hadd : m.addAll extensions operators allowedAssets = .ok m') : m'.Consistent := by
  simp only [Permissions.addAll, bind_eq_ok, pure_eq_ok] at hadd
  obtain ⟨t, ht, o, ho, a, ha, rfl⟩ := hadd
  have hm : t.Consistent := runs_invariant Consistent (fun _ _ _ h hadd => h.addExtension hadd) h ht
  exact { hm with operators := hm.operators.adds ho, allowedAssets := hm.allowedAssets.adds ha }

/-! ### Extensions that were removed -/

/-- Adding extensions leaves the state of every other one. -/
theorem addExtensions_off {extensions : List Address} (hoff : extension ∉ extensions)
    (h : runs addExtension m extensions = .ok m') :
    m'.extensionAllowlist extension = m.extensionAllowlist extension := by
  refine (runs_induction (fun t rest => extension ∉ rest ∧
    t.extensionAllowlist extension = m.extensionAllowlist extension) ?_ ⟨hoff, rfl⟩ h).2
  rintro t e rest t' ⟨hrest, ht⟩ hadd
  rw [List.mem_cons, not_or] at hrest
  simp only [Permissions.addExtension, bind_eq_ok, pure_eq_ok] at hadd
  obtain ⟨_, _, rfl⟩ := hadd
  exact ⟨hrest.2, (Function.update_of_ne hrest.1 _ _).trans ht⟩

/-- Removing an extension makes it one that is not there, and no other one there. -/
theorem removeExtension_none (h : m.removeExtension extension = .ok m') (e : Address) :
    m'.extensionAllowlist e = .none ↔ e = extension ∨ m.extensionAllowlist e = .none := by
  simp only [Permissions.removeExtension, bind_eq_ok, pure_eq_ok] at h
  obtain ⟨_, _, _, _, rfl⟩ := h
  show Function.update m.extensionAllowlist extension .none e = .none ↔ _
  by_cases he : e = extension
  · simp [he]
  · rw [Function.update_of_ne he]
    simp [he]

theorem removeExtensions_none {extensions : List Address}
    (h : runs removeExtension m extensions = .ok m') :
    ∀ e ∈ extensions, m'.extensionAllowlist e = .none := by
  have hstep : ∀ s e t, removeExtension s e = .ok t → (∀ e', s.extensionAllowlist e' = .none →
      t.extensionAllowlist e' = .none) ∧ t.extensionAllowlist e = .none := by
    intro s e t ht
    exact ⟨fun e' he' => (removeExtension_none ht e').mpr (.inr he'),
      (removeExtension_none ht e).mpr (.inl rfl)⟩
  exact (runs_each (fun _ _ h => h) (fun hst htu e he => htu e (hst e he)) (fun ha hst => hst _ ha)
    hstep h).2

theorem Consistent.clears (h : m.Consistent) : m.Clears := by
  constructor
  · intro sender extensions m' hremove
    simp only [removeExtensions, bind_eq_ok] at hremove
    obtain ⟨_, _, hremove⟩ := hremove
    exact removeExtensions_none hremove
  · intro sender operators m' hremove
    simp only [removeOperators, bind_eq_ok, pure_eq_ok] at hremove
    obtain ⟨_, _, _, hoperators, rfl⟩ := hremove
    exact (h.operators.removes Registry.erases_removeStorage hoperators).2.1
  · intro sender assets m' hremove
    simp only [removeAllowedAssets, bind_eq_ok, pure_eq_ok] at hremove
    obtain ⟨_, _, _, hassets, rfl⟩ := hremove
    exact (h.allowedAssets.removes Registry.erases_removeStorage hassets).2.1

theorem interactManager_mem {module : Address} {functionCall : Result Unit} (h : m.Consistent)
    (hcall : m.interactManager sender module functionCall = .ok ()) : sender ∈ m.extensions := by
  simp only [interactManager, onlyExtension, bind_eq_ok, require_eq_ok, exists_const] at hcall
  exact (h.extensions.mem_iff sender).mpr hcall.1

/-! ### Runs -/

/-- What holds while removals are under way. -/
structure Session.Sound (s : Session) : Prop where
  manager : s.manager.Consistent
  removed : ∀ extension ∈ s.removed, s.manager.extensionAllowlist extension = .none

/-- Calls that leave the extensions alone. -/
theorem Session.Sound.call {call : Permissions → Result Permissions} (h : s.Sound)
    (hcall : s.call call = .ok s')
    (hm : ∀ m', call s.manager = .ok m' → m'.Consistent ∧
      m'.extensionAllowlist = s.manager.extensionAllowlist) : s'.Sound := by
  simp only [Session.call, bind_eq_ok, pure_eq_ok] at hcall
  obtain ⟨m', hm', rfl⟩ := hcall
  obtain ⟨hconsistent, hsame⟩ := hm m' hm'
  exact ⟨hconsistent, fun e he => (congrFun hsame e).trans (h.removed e he)⟩

theorem Session.Sound.step {a : Action} (h : s.Sound) (hstep : Permissions.step s a = .ok s') :
    s'.Sound := by
  cases a with
  | initializeExtension sender =>
    simp only [Permissions.step, Session.call, bind_eq_ok, pure_eq_ok] at hstep
    obtain ⟨m', hinit, rfl⟩ := hstep
    refine ⟨h.manager.initializeExtension hinit, fun e he => ?_⟩
    simp only [Permissions.initializeExtension, bind_eq_ok, require_eq_ok, exists_const,
      pure_eq_ok] at hinit
    obtain ⟨hpending, rfl⟩ := hinit
    have hnone : s.manager.extensionAllowlist e = .none := h.removed e he
    have hne : e ≠ sender := by
      rintro rfl
      rw [hnone] at hpending
      exact absurd hpending (by decide)
    exact (Function.update_of_ne hne _ _).trans hnone
  | addExtensions sender extensions =>
    simp only [Permissions.step, Session.call, addExtensions, bind_eq_ok, pure_eq_ok] at hstep
    obtain ⟨_, ⟨m', ⟨_, _, hadd⟩, rfl⟩, rfl⟩ := hstep
    refine ⟨runs_invariant Consistent (fun _ _ _ h hadd => h.addExtension hadd) h.manager hadd,
      fun e he => ?_⟩
    obtain ⟨he, hoff⟩ := List.mem_filter.mp he
    exact (addExtensions_off (by simpa using hoff) hadd).trans (h.removed e he)
  | removeExtensions sender extensions =>
    simp only [Permissions.step, bind_eq_ok, pure_eq_ok] at hstep
    obtain ⟨_, _, rfl⟩ := hstep
    exact ⟨h.manager, h.removed⟩
  | goOn =>
    rcases hremovals : s.removals with _ | ⟨_ | ⟨extension, rest⟩, outer⟩
    · simp [Permissions.step, hremovals] at hstep
    · simp only [Permissions.step, hremovals, pure_eq_ok] at hstep
      subst hstep
      exact ⟨h.manager, h.removed⟩
    · simp only [Permissions.step, hremovals, bind_eq_ok, pure_eq_ok] at hstep
      obtain ⟨m', hremove, rfl⟩ := hstep
      refine ⟨h.manager.removeExtension hremove, fun e he => ?_⟩
      rw [removeExtension_none hremove e]
      exact (List.mem_cons.mp he).imp_right (h.removed e)
  | addOperators sender operators =>
    rw [Permissions.step] at hstep
    refine h.call hstep fun m' hm => ?_
    simp only [addOperators, bind_eq_ok, pure_eq_ok] at hm
    obtain ⟨_, _, _, hadd, rfl⟩ := hm
    exact ⟨{ h.manager with operators := h.manager.operators.adds hadd }, rfl⟩
  | removeOperators sender operators =>
    rw [Permissions.step] at hstep
    refine h.call hstep fun m' hm => ?_
    simp only [removeOperators, bind_eq_ok, pure_eq_ok] at hm
    obtain ⟨_, _, _, hremove, rfl⟩ := hm
    have hremoved := h.manager.operators.removes Registry.erases_removeStorage hremove
    exact ⟨{ h.manager with operators := hremoved.1 }, rfl⟩
  | addAllowedAssets sender assets =>
    rw [Permissions.step] at hstep
    refine h.call hstep fun m' hm => ?_
    simp only [addAllowedAssets, bind_eq_ok, pure_eq_ok] at hm
    obtain ⟨_, _, _, hadd, rfl⟩ := hm
    exact ⟨{ h.manager with allowedAssets := h.manager.allowedAssets.adds hadd }, rfl⟩
  | removeAllowedAssets sender assets =>
    rw [Permissions.step] at hstep
    refine h.call hstep fun m' hm => ?_
    simp only [removeAllowedAssets, bind_eq_ok, pure_eq_ok] at hm
    obtain ⟨_, _, _, hremove, rfl⟩ := hm
    have hremoved := h.manager.allowedAssets.removes Registry.erases_removeStorage hremove
    exact ⟨{ h.manager with allowedAssets := hremoved.1 }, rfl⟩
  | updateUseAssetAllowlist sender useAssetAllowlist =>
    rw [Permissions.step] at hstep
    refine h.call hstep fun m' hm => ?_
    simp only [updateUseAssetAllowlist, bind_eq_ok, pure_eq_ok] at hm
    obtain ⟨_, _, rfl⟩ := hm
    exact ⟨{ h.manager with }, rfl⟩
  | transferOwnership sender newOwner =>
    rw [Permissions.step] at hstep
    refine h.call hstep fun m' hm => ?_
    simp only [transferOwnership, bind_eq_ok, pure_eq_ok] at hm
    obtain ⟨_, _, rfl⟩ := hm
    exact ⟨{ h.manager with }, rfl⟩

/-- A removal during which no calls are made is the loop of the source. -/
theorem removeExtensions_run {extensions : List Address}
    (h : m.removeExtensions sender extensions = .ok m') (outer : List (List Address))
    (removed : List Address) :
    runs Permissions.step ⟨m, outer, removed⟩
      (.removeExtensions sender extensions :: List.replicate (extensions.length + 1) .goOn) =
        .ok ⟨m', outer, extensions.reverse ++ removed⟩ := by
  simp only [removeExtensions, bind_eq_ok] at h
  obtain ⟨_, howner, hloop⟩ := h
  have hstart : Permissions.step ⟨m, outer, removed⟩ (.removeExtensions sender extensions) =
      .ok ⟨m, extensions :: outer, removed⟩ := by
    simp only [Permissions.step, howner]
    rfl
  refine (runs_cons_eq_ok _).mpr ⟨_, hstart, ?_⟩
  clear hstart howner
  induction extensions generalizing m removed with
  | nil =>
    obtain rfl : m = m' := by simpa using hloop
    rfl
  | cons e rest ih =>
    obtain ⟨t, ht, hrest⟩ := (runs_cons_eq_ok _).mp hloop
    have hnext : Permissions.step ⟨m, (e :: rest) :: outer, removed⟩ .goOn =
        .ok ⟨t, rest :: outer, e :: removed⟩ := by
      simp only [Permissions.step, ht]
      rfl
    rw [List.length_cons, List.replicate_succ, List.reverse_cons, List.append_assoc,
      List.singleton_append]
    exact (runs_cons_eq_ok _).mpr ⟨_, hnext, ih (e :: removed) hrest⟩

/-- **Lists match their mappings.** In every state that a DelegatedManager reaches, also within a
removal of extensions, each list is free of duplicates and has exactly what its mapping allows; what
a call removes is gone; an extension that was removed and not added since is not listed and cannot
interact; and none but the listed ones can. -/
theorem permissions_match {setToken owner : Address}
    {extensions operators allowedAssets : List Address} {useAssetAllowlist : Bool}
    {actions : List Action}
    (hconstruct : construct setToken owner extensions operators allowedAssets useAssetAllowlist =
      .ok m) (hrun : runs Permissions.step ⟨m, [], []⟩ actions = .ok s) :
    s.manager.Consistent ∧ s.manager.Clears ∧
    (∀ extension ∈ s.removed, extension ∉ s.manager.extensions ∧ ∀ module functionCall,
      s.manager.interactManager extension module functionCall ≠ .ok ()) ∧
    ∀ sender module functionCall, s.manager.interactManager sender module functionCall = .ok () →
      sender ∈ s.manager.extensions := by
  have hstart : Consistent ⟨setToken, owner, fun _ => .none, [], .empty, .empty,
      useAssetAllowlist⟩ :=
    ⟨⟨List.nodup_nil, fun e => by simp⟩, Registry.empty_consistent, Registry.empty_consistent⟩
  have hm : m.Consistent := hstart.addAll hconstruct
  have hs : s.Sound := runs_invariant Session.Sound (fun _ _ _ h hstep => h.step hstep)
    ⟨hm, fun _ he => absurd he List.not_mem_nil⟩ hrun
  have hunlisted : ∀ extension ∈ s.removed, extension ∉ s.manager.extensions := by
    intro extension he
    rw [hs.manager.extensions.mem_iff, hs.removed extension he]
    decide
  refine ⟨hs.manager, hs.manager.clears, fun extension he => ⟨hunlisted extension he, ?_⟩,
    fun sender module functionCall hcall => interactManager_mem hs.manager hcall⟩
  intro module functionCall hcall
  exact hunlisted extension he (interactManager_mem hs.manager hcall)

/-- While extension 11 is removed, extension 12 initializes itself. -/
theorem permissions_match_example :
    ∃ m s, construct 1 2 [11, 12] [5] [] false = .ok m ∧
      runs Permissions.step ⟨m, [], []⟩
        [.initializeExtension 11, .removeExtensions 2 [11], .goOn, .initializeExtension 12, .goOn,
          .removeOperators 2 [5], .addOperators 2 [6, 5]] = .ok s ∧
      s.manager.extensions = [12] ∧ 11 ∉ s.manager.extensions := by
  have h : (do
      let m ← construct 1 2 [11, 12] [5] [] false
      let s ← runs Permissions.step ⟨m, [], []⟩
        [.initializeExtension 11, .removeExtensions 2 [11], .goOn, .initializeExtension 12, .goOn,
          .removeOperators 2 [5], .addOperators 2 [6, 5]]
      require (s.manager.extensions = [12] ∧ s.removed = [11]) "") = .ok () := by decide +kernel
  simp only [bind_eq_ok, require_eq_ok] at h
  obtain ⟨m, hconstruct, s, hrun, hextensions, hremoved⟩ := h
  obtain ⟨_, _, hgone, _⟩ := permissions_match hconstruct hrun
  exact ⟨m, s, hconstruct, hrun, hextensions, (hgone 11 (by simp [hremoved])).1⟩

end Permissions

end DelegatedManager

end IndexProtocol
