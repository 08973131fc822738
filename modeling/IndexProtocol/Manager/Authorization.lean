import IndexProtocol.Manager.BaseManager
import IndexProtocol.SetToken.Representation

/-! Which extensions are authorized, over runs of the manager.

Three arrays mirror three mappings: the extensions, the protected modules, and
for each protected module the extensions authorized for it. The functions that
authorize one extension look whether it is authorized already; those that protect
a module take an array and do not, so the array must name nobody twice. -/
namespace IndexProtocol
open Evm

namespace BaseManager

/-- The arrays list exactly what the mappings flag, authorized extensions are registered, and an
unprotected module has none. -/
structure Consistent (m : BaseManager) : Prop where
  extensions : Lists m.extensions fun e => m.isExtension e = true
  modules : Lists m.protectedModulesList fun a => (m.protectedModules a).isProtected = true
  authorized : ∀ a, Lists (m.protectedModules a).authorizedExtensionsList fun e =>
    (m.protectedModules a).authorizedExtensions e = true
  registered : ∀ a e, (m.protectedModules a).authorizedExtensions e = true → m.isExtension e = true
  unprotected : ∀ a, (m.protectedModules a).isProtected = false →
    (m.protectedModules a).authorizedExtensionsList = []

section Steps
variable {m m' : BaseManager} {module extension : Address}

theorem construct_consistent (self setToken operator methodologist : Address) :
    (construct self setToken operator methodologist).Consistent := by
  refine ⟨⟨List.nodup_nil, fun e => ?_⟩, ⟨List.nodup_nil, fun a => ?_⟩,
    fun a => ⟨List.nodup_nil, fun e => ?_⟩, fun a e h => ?_, fun a _ => rfl⟩
  · simp [construct]
  · simp [construct, ProtectedModule.empty]
  · simp [construct, ProtectedModule.empty]
  · simp [construct, ProtectedModule.empty] at h

@[simp] theorem setProtectedModule_same {f : ProtectedModule → ProtectedModule} :
    (m.setProtectedModule module f).protectedModules module = f (m.protectedModules module) :=
  Function.update_self _ _ _

@[simp] theorem setProtectedModule_of_ne {f : ProtectedModule → ProtectedModule} {a : Address}
    (h : a ≠ module) :
    (m.setProtectedModule module f).protectedModules a = m.protectedModules a :=
  Function.update_of_ne h _ _

/-- Nothing that consistency speaks of changed. -/
theorem Consistent.of_eq (h : m.Consistent) (hextensions : m'.extensions = m.extensions)
    (his : m'.isExtension = m.isExtension) (hmodules : m'.protectedModules = m.protectedModules)
    (hlist : m'.protectedModulesList = m.protectedModulesList) : m'.Consistent := by
  constructor
  · rw [hextensions, his]
    exact h.extensions
  · rw [hlist, hmodules]
    exact h.modules
  · rw [hmodules]
    exact h.authorized
  · rw [hmodules, his]
    exact h.registered
  · rw [hmodules]
    exact h.unprotected

theorem pushExtension_consistent (h : m.Consistent) (hnew : m.isExtension extension = false) :
    (m.pushExtension extension).Consistent := by
  refine ⟨?_, h.modules, h.authorized, fun a e he => ?_, h.unprotected⟩
  · refine h.extensions.push (fun b hb => ?_) (by simp [hnew]) (by simp [pushExtension])
    simp [pushExtension, hb]
  · by_cases hextension : e = extension
    · simp [pushExtension, hextension]
    · simp [pushExtension, hextension, h.registered a e he]

/-- One protected module written, with the array of protected modules to go with it. -/
theorem Consistent.write (h : m.Consistent) {f : ProtectedModule → ProtectedModule}
    {list : List Address}
    (hmodules : Lists list fun a =>
      ((m.setProtectedModule module f).protectedModules a).isProtected = true)
    (hauthorized : Lists (f (m.protectedModules module)).authorizedExtensionsList fun e =>
      (f (m.protectedModules module)).authorizedExtensions e = true)
    (hregistered : ∀ e, (f (m.protectedModules module)).authorizedExtensions e = true →
      m.isExtension e = true)
    (hunprotected : (f (m.protectedModules module)).isProtected = false →
      (f (m.protectedModules module)).authorizedExtensionsList = []) :
    ({ m.setProtectedModule module f with protectedModulesList := list } : BaseManager).Consistent := by
  refine ⟨h.extensions, hmodules, fun a => ?_, fun a => ?_, fun a => ?_⟩
  · by_cases ha : a = module
    · subst ha
      rwa [setProtectedModule_same]
    · rw [setProtectedModule_of_ne ha]
      exact h.authorized a
  · by_cases ha : a = module
    · subst ha
      rwa [setProtectedModule_same]
    · rw [setProtectedModule_of_ne ha]
      exact h.registered a
  · by_cases ha : a = module
    · subst ha
      rwa [setProtectedModule_same]
    · rw [setProtectedModule_of_ne ha]
      exact h.unprotected a

/-- The same where the module stays protected, or unprotected. -/
theorem Consistent.rewrite (h : m.Consistent) {f : ProtectedModule → ProtectedModule}
    (hsame : (f (m.protectedModules module)).isProtected = (m.protectedModules module).isProtected)
    (hprotected : (m.protectedModules module).isProtected = true)
    (hauthorized : Lists (f (m.protectedModules module)).authorizedExtensionsList fun e =>
      (f (m.protectedModules module)).authorizedExtensions e = true)
    (hregistered : ∀ e, (f (m.protectedModules module)).authorizedExtensions e = true →
      m.isExtension e = true) :
    (m.setProtectedModule module f).Consistent := by
  refine h.write (h.modules.of_iff fun a => ?_) hauthorized hregistered fun hunprotected => ?_
  · by_cases ha : a = module
    · subst ha
      rw [setProtectedModule_same, hsame]
    · rw [setProtectedModule_of_ne ha]
  · rw [hsame, hprotected] at hunprotected
    cases hunprotected

/-- Authorizing an extension that is not authorized for the protected module yet. -/
theorem authorize_consistent (h : m.Consistent)
    (hprotected : (m.protectedModules module).isProtected = true)
    (hnew : (m.protectedModules module).authorizedExtensions extension = false) :
    (m.authorize module extension).Consistent ∧
      ((m.authorize module extension).protectedModules module).isProtected = true ∧
      ∀ e, e ≠ extension →
        ((m.authorize module extension).protectedModules module).authorizedExtensions e =
          (m.protectedModules module).authorizedExtensions e := by
  -- Whether the extension was registered before or is now, the modules are as before.
  obtain ⟨n, hn, hmodules, hcon, his⟩ : ∃ n : BaseManager,
      (if m.isExtension extension = false then m.pushExtension extension else m) = n ∧
        n.protectedModules = m.protectedModules ∧ n.Consistent ∧ n.isExtension extension = true := by
    split_ifs with hextension
    · exact ⟨_, rfl, rfl, pushExtension_consistent h hextension, by simp [pushExtension]⟩
    · exact ⟨_, rfl, rfl, h, by simpa using hextension⟩
  rw [← hmodules] at hprotected hnew ⊢
  simp only [authorize, hn]
  refine ⟨hcon.rewrite rfl hprotected ?_ fun e he => ?_, ?_, fun e he => ?_⟩
  · refine (hcon.authorized module).push (fun b hb => ?_) ?_ ?_
    · simp [hb]
    · simp [hnew]
    · simp
  · by_cases hextension : e = extension
    · rw [hextension]
      exact his
    · exact hcon.registered module e (by simpa [hextension] using he)
  · rw [setProtectedModule_same]
    exact hprotected
  · rw [setProtectedModule_same]
    exact Function.update_of_ne he _ _

/-- Authorizing distinct extensions, none of them authorized yet. -/
theorem authorizes_consistent {extensions : List Address} (h : m.Consistent)
    (hprotected : (m.protectedModules module).isProtected = true) (hnodup : extensions.Nodup)
    (hnew : ∀ e ∈ extensions, (m.protectedModules module).authorizedExtensions e = false) :
    (extensions.foldl (fun m extension => m.authorize module extension) m).Consistent := by
  induction extensions generalizing m with
  | nil => exact h
  | cons extension rest ih =>
    rw [List.nodup_cons] at hnodup
    obtain ⟨hcon, hprotected', hothers⟩ :=
      authorize_consistent h hprotected (hnew extension List.mem_cons_self)
    rw [List.foldl_cons]
    refine ih hcon hprotected' hnodup.2 fun e he => ?_
    have hne : e ≠ extension := fun heq => hnodup.1 (heq ▸ he)
    rw [hothers e hne]
    exact hnew e (List.mem_cons_of_mem _ he)

/-- An unprotected module has no flag set. -/
theorem Consistent.unflagged (h : m.Consistent)
    (hunprotected : (m.protectedModules module).isProtected = false) (e : Address) :
    (m.protectedModules module).authorizedExtensions e = false := by
  have hnil := h.unprotected module hunprotected
  have hflag := ((h.authorized module).eq_nil_iff.mp hnil) e
  simpa using hflag

/-- The array is appended as it is. -/
theorem authorizes_list (extensions : List Address) (m : BaseManager) :
    ((extensions.foldl (fun m extension => m.authorize module extension) m).protectedModules
      module).authorizedExtensionsList =
        (m.protectedModules module).authorizedExtensionsList ++ extensions := by
  induction extensions generalizing m with
  | nil => simp
  | cons extension rest ih =>
    have hlist : ((m.authorize module extension).protectedModules module).authorizedExtensionsList =
        (m.protectedModules module).authorizedExtensionsList ++ [extension] := by
      simp only [authorize]
      split_ifs <;> simp [pushExtension]
    rw [List.foldl_cons, ih, hlist, List.append_assoc, List.singleton_append]

/-- Protecting a module with an array keeps consistency exactly if the array repeats nothing. -/
theorem protect_consistent_iff {extensions : List Address} (h : m.Consistent)
    (hprotect : m.protect module extensions = .ok m') : m'.Consistent ↔ extensions.Nodup := by
  simp only [protect, bind_eq_ok, require_eq_ok, exists_const, pure_eq_ok] at hprotect
  obtain ⟨hunprotected, rfl⟩ := hprotect
  refine ⟨fun hcon => ?_, fun hnodup => ?_⟩
  · have hlist := (hcon.authorized module).nodup
    rw [authorizes_list] at hlist
    exact (List.nodup_append.mp hlist).2.1
  have hflags := h.unflagged hunprotected
  refine authorizes_consistent (h.write ?_ (h.authorized module) (h.registered module) ?_)
    (by simp) hnodup fun e _ => by simp [hflags]
  · refine h.modules.push (fun a ha => ?_) ?_ ?_
    · rw [setProtectedModule_of_ne ha]
    · rw [hunprotected]
      decide
    · rw [setProtectedModule_same]
  · intro hfalse
    cases hfalse

/-- The loop that clears the flags of a list. -/
theorem clear_eq_true (extensions : List Address) (authorized : Address → Bool) (e : Address) :
    extensions.foldl (fun authorized extension => Function.update authorized extension false)
        authorized e = true ↔ e ∉ extensions ∧ authorized e = true := by
  induction extensions generalizing authorized with
  | nil => simp
  | cons extension rest ih =>
    rw [List.foldl_cons, ih, List.mem_cons, not_or]
    by_cases he : e = extension
    · simp [he]
    · simp [he]

theorem unProtect_consistent (h : m.Consistent) (hunprotect : m.unProtect module = .ok m') :
    m'.Consistent := by
  simp only [unProtect, bind_eq_ok, require_eq_ok, exists_const, pure_eq_ok] at hunprotect
  obtain ⟨_, list, hremove, rfl⟩ := hunprotect
  obtain ⟨_, hperm⟩ := ArrayUtils.removeStorage_eq_ok hremove
  refine h.write ?_ ⟨List.nodup_nil, fun e => iff_of_false List.not_mem_nil fun he => ?_⟩
    (fun e he => ?_) fun _ => rfl
  · refine h.modules.remove hperm (fun a ha => ?_) ?_
    · rw [setProtectedModule_of_ne ha]
    · simp
  · -- Every flag that is set is listed, so the loop clears it.
    obtain ⟨hnot, hflag⟩ := (clear_eq_true _ _ e).mp he
    exact hnot (((h.authorized module).mem_iff e).mpr hflag)
  · exact h.registered module e ((clear_eq_true _ _ e).mp he).2

theorem authorizeExtension_consistent (h : m.Consistent)
    (hauthorize : m.authorizeExtension module extension = .ok m') : m'.Consistent := by
  simp only [authorizeExtension, bind_eq_ok, require_eq_ok, exists_const, pure_eq_ok] at hauthorize
  obtain ⟨hprotected, hnew, rfl⟩ := hauthorize
  exact (authorize_consistent h hprotected hnew).1

/-- A flag cleared in a mapping was another one, or was not set. -/
theorem update_false_eq_true {flags : Address → Bool} {e : Address}
    (h : Function.update flags extension false e = true) : e ≠ extension ∧ flags e = true := by
  by_cases he : e = extension
  · rw [he, Function.update_self] at h
    cases h
  · rw [Function.update_of_ne he] at h
    exact ⟨he, h⟩

theorem revoke_consistent (h : m.Consistent)
    (hrevoke : m.revokeExtensionAuthorization module extension = .ok m') : m'.Consistent := by
  simp only [revokeExtensionAuthorization, bind_eq_ok, require_eq_ok, exists_const,
    pure_eq_ok] at hrevoke
  obtain ⟨hprotected, _, _, list, hremove, rfl⟩ := hrevoke
  obtain ⟨_, hperm⟩ := ArrayUtils.removeStorage_eq_ok hremove
  refine h.rewrite rfl hprotected ?_ fun e he => ?_
  · refine (h.authorized module).remove hperm (fun b hb => ?_) ?_
    · simp [hb]
    · simp
  · exact h.registered module e (update_false_eq_true he).2

/-- An extension that no protected module uses is authorized for no module at all. -/
theorem Consistent.unused (h : m.Consistent) (hunused : m.isAuthorizedExtension extension = false)
    (a : Address) : (m.protectedModules a).authorizedExtensions extension = false := by
  cases hprotected : (m.protectedModules a).isProtected with
  | false => exact h.unflagged hprotected extension
  | true =>
    rw [isAuthorizedExtension, List.any_eq_false] at hunused
    simpa using hunused a ((h.modules.mem_iff a).mpr hprotected)

theorem removeExtension_consistent {sender : Address} (h : m.Consistent)
    (hremove : m.removeExtension sender extension = .ok m') : m'.Consistent := by
  simp only [removeExtension, onlyOperator, bind_eq_ok, require_eq_ok, exists_const,
    pure_eq_ok] at hremove
  obtain ⟨_, _, hunused, list, hremove, rfl⟩ := hremove
  obtain ⟨_, hperm⟩ := ArrayUtils.removeStorage_eq_ok hremove
  refine ⟨?_, h.modules, h.authorized, fun a e he => ?_, h.unprotected⟩
  · refine h.extensions.remove hperm (fun b hb => ?_) ?_
    · simp [hb]
    · simp
  · have hne : e ≠ extension := by
      rintro rfl
      rw [h.unused hunused a] at he
      cases he
    show Function.update m.isExtension extension false e = true
    rw [Function.update_of_ne hne]
    exact h.registered a e he

end Steps

end BaseManager

/-! ### Runs -/

/-- What operator and methodologist call, and what happens elsewhere. -/
inductive ManagerCall where
  | authorizeInitialization (sender : Address)
  | addExtension (sender extension : Address)
  | removeExtension (sender extension : Address)
  | addModule (sender module : Address)
  | removeModule (sender module : Address)
  | emergencyRemoveProtectedModule (sender module : Address)
  | protectModule (sender module : Address) (extensions : List Address)
  | unProtectModule (sender module : Address)
  | resolveEmergency (sender : Address)
  | setMethodologist (sender newMethodologist : Address)
  | setOperator (sender newOperator : Address)
  | mutualUpgrade (sender : Address) (u : Upgrade)
  /-- The SetToken changes on its own, also where an extension has the manager call a module. -/
  | elsewhere (setToken : SetToken)

namespace ManagerWorld
open BaseManager

def call (extensionManager : Address → Address) (callback : RemoveCallback) (w : ManagerWorld) :
    ManagerCall → Result ManagerWorld
  | .authorizeInitialization sender => w.callManager (·.authorizeInitialization sender)
  | .addExtension sender extension =>
    w.callManager (·.addExtension sender extensionManager extension)
  | .removeExtension sender extension => w.callManager (·.removeExtension sender extension)
  | .addModule sender module => w.addModule sender module
  | .removeModule sender module => w.removeModule sender callback module
  | .emergencyRemoveProtectedModule sender module =>
    w.emergencyRemoveProtectedModule sender callback module
  | .protectModule sender module extensions => w.protectModule sender module extensions
  | .unProtectModule sender module => w.callManager (·.unProtectModule sender module)
  | .resolveEmergency sender => w.callManager (·.resolveEmergency sender)
  | .setMethodologist sender newMethodologist =>
    w.callManager (·.setMethodologist sender newMethodologist)
  | .setOperator sender newOperator => w.callManager (·.setOperator sender newOperator)
  | .mutualUpgrade sender u => w.mutualUpgrade sender callback u
  | .elsewhere setToken => pure { w with setToken := setToken }

/-- The array of extensions that an upgrade authorizes at once. -/
def bulk : Upgrade → List Address
  | .replaceProtectedModule _ _ newExtensions => newExtensions
  | .emergencyReplaceProtectedModule _ extensions => extensions
  | _ => []

/-- The call, if it is carried out and not only recorded, repeats no extension in its array. -/
def Distinct (w : ManagerWorld) : ManagerCall → Prop
  | .protectModule _ _ extensions => extensions.Nodup
  | .mutualUpgrade sender u =>
    w.manager.mutualUpgrades (u, w.manager.getNonCaller sender) = true → (bulk u).Nodup
  | _ => True

variable {extensionManager : Address → Address} {callback : RemoveCallback} {w v : ManagerWorld}

/-- A call of the SetToken leaves the manager alone. -/
theorem callSetToken_manager {f : SetToken → Result SetToken} (h : w.callSetToken f = .ok v) :
    v.manager = w.manager := by
  simp only [callSetToken, bind_eq_ok, pure_eq_ok] at h
  obtain ⟨_, _, rfl⟩ := h
  rfl

theorem callManager_eq_ok {f : BaseManager → Result BaseManager} (h : w.callManager f = .ok v) :
    f w.manager = .ok v.manager := by
  simp only [callManager, bind_eq_ok, pure_eq_ok] at h
  obtain ⟨m, hm, rfl⟩ := h
  exact hm

/-- Fields of the manager that consistency does not speak of are written. -/
theorem callManager_keeps {f : BaseManager → BaseManager}
    (hf : (f w.manager).extensions = w.manager.extensions ∧
      (f w.manager).isExtension = w.manager.isExtension ∧
      (f w.manager).protectedModules = w.manager.protectedModules ∧
      (f w.manager).protectedModulesList = w.manager.protectedModulesList)
    (h : w.callManager (fun m => pure (f m)) = .ok v) :
    v.manager.Consistent ↔ w.manager.Consistent := by
  have hm := callManager_eq_ok h
  rw [← pure_eq_ok.mp hm]
  exact ⟨fun hv => hv.of_eq hf.1.symm hf.2.1.symm hf.2.2.1.symm hf.2.2.2.symm,
    fun hw => hw.of_eq hf.1 hf.2.1 hf.2.2.1 hf.2.2.2⟩

theorem upgrade_consistent_iff {u : Upgrade} (hw : w.manager.Consistent)
    (h : w.upgrade callback u = .ok v) : v.manager.Consistent ↔ (bulk u).Nodup := by
  cases u with
  | setManager newManager =>
    simp only [upgrade, bind_eq_ok] at h
    obtain ⟨_, _, h⟩ := h
    rw [callSetToken_manager h]
    exact iff_of_true hw List.nodup_nil
  | authorizeExtension module extension =>
    simp only [upgrade] at h
    have hcon := authorizeExtension_consistent hw (callManager_eq_ok h)
    exact iff_of_true hcon List.nodup_nil
  | revokeExtensionAuthorization module extension =>
    simp only [upgrade] at h
    have hcon := revoke_consistent hw (callManager_eq_ok h)
    exact iff_of_true hcon List.nodup_nil
  | replaceProtectedModule oldModule newModule newExtensions =>
    simp only [upgrade, bind_eq_ok] at h
    obtain ⟨w₁, hunprotect, w₂, hremove, w₃, hadd, hprotect⟩ := h
    have hw₁ := unProtect_consistent hw (callManager_eq_ok hunprotect)
    have hw₃ : w₃.manager.Consistent := by
      rwa [callSetToken_manager hadd, callSetToken_manager hremove]
    exact protect_consistent_iff hw₃ (callManager_eq_ok hprotect)
  | emergencyReplaceProtectedModule module extensions =>
    simp only [upgrade, bind_eq_ok] at h
    obtain ⟨_, _, w₁, hadd, w₂, hprotect, hemergencies⟩ := h
    have hw₁ : w₁.manager.Consistent := by rwa [callSetToken_manager hadd]
    rw [callManager_keeps ⟨rfl, rfl, rfl, rfl⟩ hemergencies]
    exact protect_consistent_iff hw₁ (callManager_eq_ok hprotect)

theorem mutualUpgrade_consistent_iff {sender : Address} {u : Upgrade} (hw : w.manager.Consistent)
    (h : w.mutualUpgrade sender callback u = .ok v) :
    v.manager.Consistent ↔ Distinct w (.mutualUpgrade sender u) := by
  simp only [mutualUpgrade, bind_eq_ok] at h
  obtain ⟨_, _, h⟩ := h
  show _ ↔ (w.manager.mutualUpgrades (u, w.manager.getNonCaller sender) = true → (bulk u).Nodup)
  split_ifs at h with hrecorded
  · rw [callManager_keeps ⟨rfl, rfl, rfl, rfl⟩ h, hrecorded]
    exact iff_of_true hw fun hfalse => by cases hfalse
  · simp only [bind_eq_ok] at h
    obtain ⟨w₁, hclear, h⟩ := h
    have hw₁ := (callManager_keeps ⟨rfl, rfl, rfl, rfl⟩ hclear).mpr hw
    rw [upgrade_consistent_iff hw₁ h]
    exact ⟨fun hnodup _ => hnodup, fun himp => himp (by simpa using hrecorded)⟩

/-- **One call.** It keeps arrays and mappings in step exactly if it repeats no extension. -/
theorem call_consistent_iff {c : ManagerCall} (hw : w.manager.Consistent)
    (h : w.call extensionManager callback c = .ok v) : v.manager.Consistent ↔ Distinct w c := by
  cases c with
  | authorizeInitialization sender =>
    simp only [call] at h
    have hm := callManager_eq_ok h
    simp only [authorizeInitialization, bind_eq_ok, pure_eq_ok] at hm
    obtain ⟨_, _, _, _, hm⟩ := hm
    rw [← hm]
    exact iff_of_true (hw.of_eq rfl rfl rfl rfl) trivial
  | addExtension sender extension =>
    simp only [call] at h
    have hm := callManager_eq_ok h
    simp only [addExtension, bind_eq_ok, require_eq_ok, exists_const, pure_eq_ok] at hm
    obtain ⟨_, _, _, _, hnew, _, hm⟩ := hm
    rw [← hm]
    exact iff_of_true (pushExtension_consistent hw hnew) trivial
  | removeExtension sender extension =>
    simp only [call] at h
    exact iff_of_true (removeExtension_consistent hw (callManager_eq_ok h)) trivial
  | addModule sender module =>
    simp only [call, addModule, bind_eq_ok] at h
    obtain ⟨_, _, _, _, h⟩ := h
    rw [callSetToken_manager h]
    exact iff_of_true hw trivial
  | removeModule sender module =>
    simp only [call, removeModule, bind_eq_ok] at h
    obtain ⟨_, _, _, _, h⟩ := h
    rw [callSetToken_manager h]
    exact iff_of_true hw trivial
  | emergencyRemoveProtectedModule sender module =>
    simp only [call, emergencyRemoveProtectedModule, bind_eq_ok] at h
    obtain ⟨_, _, w₁, hunprotect, w₂, hremove, hemergencies⟩ := h
    have hw₁ := unProtect_consistent hw (callManager_eq_ok hunprotect)
    rw [callManager_keeps ⟨rfl, rfl, rfl, rfl⟩ hemergencies, callSetToken_manager hremove]
    exact iff_of_true hw₁ trivial
  | protectModule sender module extensions =>
    simp only [call, protectModule, bind_eq_ok] at h
    obtain ⟨_, _, _, _, _, _, h⟩ := h
    exact protect_consistent_iff hw (callManager_eq_ok h)
  | unProtectModule sender module =>
    simp only [call] at h
    have hm := callManager_eq_ok h
    simp only [unProtectModule, bind_eq_ok] at hm
    obtain ⟨_, _, hm⟩ := hm
    exact iff_of_true (unProtect_consistent hw hm) trivial
  | resolveEmergency sender =>
    simp only [call] at h
    have hm := callManager_eq_ok h
    simp only [resolveEmergency, bind_eq_ok, pure_eq_ok] at hm
    obtain ⟨_, _, _, _, hm⟩ := hm
    rw [← hm]
    exact iff_of_true (hw.of_eq rfl rfl rfl rfl) trivial
  | setMethodologist sender newMethodologist =>
    simp only [call] at h
    have hm := callManager_eq_ok h
    simp only [setMethodologist, bind_eq_ok, pure_eq_ok] at hm
    obtain ⟨_, _, hm⟩ := hm
    rw [← hm]
    exact iff_of_true (hw.of_eq rfl rfl rfl rfl) trivial
  | setOperator sender newOperator =>
    simp only [call] at h
    have hm := callManager_eq_ok h
    simp only [setOperator, bind_eq_ok, pure_eq_ok] at hm
    obtain ⟨_, _, hm⟩ := hm
    rw [← hm]
    exact iff_of_true (hw.of_eq rfl rfl rfl rfl) trivial
  | mutualUpgrade sender u => exact mutualUpgrade_consistent_iff hw h
  | elsewhere setToken =>
    rw [← pure_eq_ok.mp h]
    exact iff_of_true hw trivial

/-- **The authorization theorem.** A run from deployment keeps arrays and mappings in step, with
authorized extensions registered and unprotected modules without any, in every state it reaches,
exactly if none of its calls repeats an extension in an array it authorizes. -/
theorem authorization_consistent_iff {self setToken operator methodologist : Address}
    {calls : List ManagerCall}
    (hw : w.manager = .construct self setToken operator methodologist)
    (hrun : runs (call extensionManager callback) w calls = .ok v) :
    (∀ n u, runs (call extensionManager callback) w (calls.take n) = .ok u →
      u.manager.Consistent) ↔ Along (call extensionManager callback) Distinct w calls := by
  refine runs_prefixes_iff (fun _ _ _ => call_consistent_iff) ?_ hrun
  rw [hw]
  exact construct_consistent self setToken operator methodologist

/-! The operator at 9 and the methodologist at 8 manage a SetToken with one module, at 10. -/

def exampleStart : Result ManagerWorld := do
  let s ← SetTokenCreator.create SetToken.exampleController 7 20 [1, 2] [10 ^ 18, 5] [10] 30
  let s ← s.initializeModule 10
  pure ⟨.construct 30 20 9 8, s⟩

def exampleCalls : List ManagerCall :=
  [.addExtension 9 5, .protectModule 9 10 [5, 6], .mutualUpgrade 8 (.authorizeExtension 10 4),
    .mutualUpgrade 9 (.authorizeExtension 10 4)]

theorem authorization_consistent_iff_example : ∃ w v, exampleStart = .ok w ∧
    runs (call (fun _ => 30) fun _ s => pure s) w exampleCalls = .ok v ∧
    (v.manager.protectedModules 10).authorizedExtensionsList = [5, 6, 4] ∧ v.manager.Consistent := by
  have h : (do
      let w ← exampleStart
      let v ← runs (call (fun _ => 30) fun _ s => pure s) w exampleCalls
      require ((v.manager.protectedModules 10).authorizedExtensionsList = [5, 6, 4]) "") =
      .ok () := by
    decide +kernel
  simp only [bind_eq_ok, require_eq_ok] at h
  obtain ⟨w, hw, v, hv, hlist⟩ := h
  have hmanager : w.manager = .construct 30 20 9 8 := by
    simp only [exampleStart, bind_eq_ok, pure_eq_ok] at hw
    obtain ⟨_, _, _, _, rfl⟩ := hw
    rfl
  have hdistinct : Along (call (fun _ => 30) fun _ s => pure s) Distinct w exampleCalls :=
    ⟨trivial, fun _ _ => ⟨(by decide : ([5, 6] : List Address).Nodup), fun _ _ =>
      ⟨fun _ => List.nodup_nil, fun _ _ => ⟨fun _ => List.nodup_nil, fun _ _ => trivial⟩⟩⟩⟩
  exact ⟨w, v, hw, hv, hlist,
    (authorization_consistent_iff hmanager hv).mpr hdistinct 4 v hv⟩

/-- An extension named twice is listed twice, and stays listed when it is revoked. -/
theorem protection_repeats : ∃ w v u, exampleStart = .ok w ∧
    runs (call (fun _ => 30) fun _ s => pure s) w [.protectModule 9 10 [5, 5]] = .ok v ∧
    (v.manager.protectedModules 10).isProtected = true ∧
    ¬(v.manager.protectedModules 10).authorizedExtensionsList.Nodup ∧
    runs (call (fun _ => 30) fun _ s => pure s) v
      [.mutualUpgrade 8 (.revokeExtensionAuthorization 10 5),
        .mutualUpgrade 9 (.revokeExtensionAuthorization 10 5)] = .ok u ∧
    (u.manager.protectedModules 10).isProtected = true ∧
    5 ∈ (u.manager.protectedModules 10).authorizedExtensionsList ∧
    (u.manager.protectedModules 10).authorizedExtensions 5 = false := by
  have h : (do
      let w ← exampleStart
      let v ← runs (call (fun _ => 30) fun _ s => pure s) w [.protectModule 9 10 [5, 5]]
      require ((v.manager.protectedModules 10).isProtected = true ∧
        ¬(v.manager.protectedModules 10).authorizedExtensionsList.Nodup) ""
      let u ← runs (call (fun _ => 30) fun _ s => pure s) v
        [.mutualUpgrade 8 (.revokeExtensionAuthorization 10 5),
          .mutualUpgrade 9 (.revokeExtensionAuthorization 10 5)]
      require ((u.manager.protectedModules 10).isProtected = true ∧
        5 ∈ (u.manager.protectedModules 10).authorizedExtensionsList ∧
        (u.manager.protectedModules 10).authorizedExtensions 5 = false) "") = .ok () := by
    decide +kernel
  simp only [bind_eq_ok, require_eq_ok, exists_const] at h
  obtain ⟨w, hw, v, hv, hlisted, u, hu, hleft⟩ := h
  exact ⟨w, v, u, hw, hv, hlisted.1, hlisted.2, hu, hleft⟩

end ManagerWorld

end IndexProtocol
