import IndexProtocol.SetToken.Creation

/-! Runs of a SetToken, from its creation.

The state of a SetToken changes by the edits that modules make and by the calls
of the manager and of modules that leave positions alone. Every call keeps the
representation of the positions well formed. -/
namespace IndexProtocol
open Evm PreciseUnitMath

namespace SetToken

/-- The calls that write positions or the multiplier. -/
inductive Edit where
  | editDefaultPosition (sender component : Address) (newUnit : Nat)
  | editExternalPosition (sender component module : Address) (newUnit : Int) (data : List UInt8)
  | editPositionMultiplier (sender : Address) (newMultiplier : Int)

def edit (s : SetToken) : Edit → Result SetToken
  | .editDefaultPosition sender component newUnit =>
    Position.editDefaultPosition s sender component newUnit
  | .editExternalPosition sender component module newUnit data =>
    Position.editExternalPosition s sender component module newUnit data
  | .editPositionMultiplier sender newMultiplier => s.editPositionMultiplier sender newMultiplier

inductive Call where
  | edit (e : Edit)
  | mint (sender account : Address) (quantity : Nat)
  | burn (sender account : Address) (quantity : Nat)
  | lock (sender : Address)
  | unlock (sender : Address)
  | addModule (sender module : Address)
  /-- The module removed may edit positions while it is called. -/
  | removeModule (sender module : Address) (edits : List Edit)
  | removePendingModule (sender module : Address)
  | initializeModule (sender : Address)
  | setManager (sender manager : Address)
  /-- The Controller is another contract, and changes on its own. -/
  | changeController (controller : Controller)

def call (s : SetToken) : Call → Result SetToken
  | .edit e => s.edit e
  | .mint sender account quantity => s.mint sender account quantity
  | .burn sender account quantity => s.burn sender account quantity
  | .lock sender => s.lock sender
  | .unlock sender => s.unlock sender
  | .addModule sender module => s.addModule sender module
  | .removeModule sender module edits => s.removeModule sender (runs edit · edits) module
  | .removePendingModule sender module => s.removePendingModule sender module
  | .initializeModule sender => s.initializeModule sender
  | .setManager sender manager => s.setManager sender manager
  | .changeController controller => pure { s with controller := controller }

variable {s t : SetToken}

theorem edit_wellFormed {e : Edit} (h : s.WellFormed) (he : s.edit e = .ok t) : t.WellFormed := by
  cases e with
  | editDefaultPosition sender component newUnit => exact editDefaultPosition_wellFormed h he
  | editExternalPosition sender component module newUnit data =>
    exact editExternalPosition_wellFormed h he
  | editPositionMultiplier sender newMultiplier => exact editPositionMultiplier_wellFormed h he

theorem edits_wellFormed {edits : List Edit} (h : s.WellFormed) (he : runs edit s edits = .ok t) :
    t.WellFormed :=
  runs_invariant WellFormed (fun _ _ _ => edit_wellFormed) h he

/-- Nothing that the portfolio depends on changed. -/
structure SamePositions (s t : SetToken) : Prop where
  self : t.self = s.self
  components : t.components = s.components
  componentPositions : t.componentPositions = s.componentPositions
  positionMultiplier : t.positionMultiplier = s.positionMultiplier

theorem WellFormed.of_same (h : s.WellFormed) (hsame : s.SamePositions t) : t.WellFormed :=
  h.of_eq hsame.components hsame.componentPositions hsame.positionMultiplier

theorem SamePositions.defaultRealUnit (h : s.SamePositions t) (component : Address) :
    t.defaultRealUnit component = s.defaultRealUnit component := by
  rw [SetToken.defaultRealUnit, SetToken.defaultRealUnit, h.positionMultiplier,
    defaultPositionVirtualUnit, defaultPositionVirtualUnit, h.componentPositions]

theorem SamePositions.externalPositionModules (h : s.SamePositions t) (component : Address) :
    t.externalPositionModules component = s.externalPositionModules component := by
  rw [SetToken.externalPositionModules, SetToken.externalPositionModules, h.componentPositions]

theorem SamePositions.externalRealUnit (h : s.SamePositions t) (component module : Address) :
    t.externalRealUnit component module = s.externalRealUnit component module := by
  rw [SetToken.externalRealUnit, SetToken.externalRealUnit, h.positionMultiplier,
    externalPositionVirtualUnit, externalPositionVirtualUnit, h.componentPositions]

theorem mint_same {sender account : Address} {quantity : Nat}
    (h : s.mint sender account quantity = .ok t) : s.SamePositions t := by
  obtain ⟨_, _, _, rfl⟩ := mint_eq_ok.mp h
  exact ⟨rfl, rfl, rfl, rfl⟩

theorem SamePositions.refl (s : SetToken) : s.SamePositions s := ⟨rfl, rfl, rfl, rfl⟩

theorem SamePositions.trans {u : SetToken} (h : s.SamePositions t) (h' : t.SamePositions u) :
    s.SamePositions u :=
  ⟨h'.self.trans h.self, h'.components.trans h.components,
    h'.componentPositions.trans h.componentPositions,
    h'.positionMultiplier.trans h.positionMultiplier⟩

theorem mint_totalSupply {sender account : Address} {quantity : Nat}
    (h : s.mint sender account quantity = .ok t) :
    s.SamePositions t ∧ t.totalSupply = s.totalSupply + quantity := by
  refine ⟨mint_same h, ?_⟩
  obtain ⟨_, _, herc20, rfl⟩ := mint_eq_ok.mp h
  obtain ⟨_, _, _, rfl⟩ := Erc20.mint_eq_ok.mp herc20
  rfl

theorem burn_same {sender account : Address} {quantity : Nat}
    (h : s.burn sender account quantity = .ok t) : s.SamePositions t := by
  obtain ⟨_, _, _, rfl⟩ := burn_eq_ok.mp h
  exact ⟨rfl, rfl, rfl, rfl⟩

theorem burn_totalSupply {sender account : Address} {quantity : Nat}
    (h : s.burn sender account quantity = .ok t) :
    s.SamePositions t ∧ t.totalSupply + quantity = s.totalSupply := by
  refine ⟨burn_same h, ?_⟩
  obtain ⟨_, _, herc20, rfl⟩ := burn_eq_ok.mp h
  obtain ⟨_, _, hle, rfl⟩ := Erc20.burn_eq_ok.mp herc20
  exact Nat.sub_add_cancel hle

theorem initializeModule_same {sender : Address} (h : s.initializeModule sender = .ok t) :
    s.SamePositions t ∧ t.totalSupply = s.totalSupply := by
  simp only [initializeModule, bind_eq_ok, pure_eq_ok] at h
  obtain ⟨_, _, _, _, rfl⟩ := h
  exact ⟨⟨rfl, rfl, rfl, rfl⟩, rfl⟩

/-- One call keeps the representation. -/
theorem call_wellFormed {a : Call} (h : s.WellFormed) (ha : s.call a = .ok t) : t.WellFormed := by
  cases a with
  | edit e => exact edit_wellFormed h ha
  | mint sender account quantity => exact h.of_same (mint_same ha)
  | burn sender account quantity => exact h.of_same (burn_same ha)
  | lock sender =>
    simp only [call, lock, bind_eq_ok, pure_eq_ok] at ha
    obtain ⟨_, _, _, _, rfl⟩ := ha
    exact h.of_same ⟨rfl, rfl, rfl, rfl⟩
  | unlock sender =>
    simp only [call, unlock, bind_eq_ok, pure_eq_ok] at ha
    obtain ⟨_, _, _, _, _, _, rfl⟩ := ha
    exact h.of_same ⟨rfl, rfl, rfl, rfl⟩
  | addModule sender module =>
    simp only [call, addModule, bind_eq_ok, pure_eq_ok] at ha
    obtain ⟨_, _, _, _, _, _, rfl⟩ := ha
    exact h.of_same ⟨rfl, rfl, rfl, rfl⟩
  | removeModule sender module edits =>
    simp only [call, removeModule, finishRemoveModule, bind_eq_ok, pure_eq_ok] at ha
    obtain ⟨_, _, s₁, hedits, _, _, rfl⟩ := ha
    exact (edits_wellFormed h hedits).of_same ⟨rfl, rfl, rfl, rfl⟩
  | removePendingModule sender module =>
    simp only [call, removePendingModule, bind_eq_ok, pure_eq_ok] at ha
    obtain ⟨_, _, _, _, _, _, rfl⟩ := ha
    exact h.of_same ⟨rfl, rfl, rfl, rfl⟩
  | initializeModule sender => exact h.of_same (initializeModule_same ha).1
  | setManager sender manager =>
    simp only [call, setManager, bind_eq_ok, pure_eq_ok] at ha
    obtain ⟨_, _, _, _, rfl⟩ := ha
    exact h.of_same ⟨rfl, rfl, rfl, rfl⟩
  | changeController controller =>
    obtain rfl : { s with controller := controller } = t := by simpa [call] using ha
    exact h.of_same ⟨rfl, rfl, rfl, rfl⟩

/-- Every SetToken reached from its creation is well formed. -/
theorem reachable_wellFormed {controller : Controller} {factory self manager : Address}
    {components modules : List Address} {units : List Int} {calls : List Call}
    (hcreate : SetTokenCreator.create controller factory self components units modules manager = .ok s)
    (hrun : runs call s calls = .ok t) : t.WellFormed :=
  runs_invariant WellFormed (fun _ _ _ => call_wellFormed) (create_wellFormed hcreate) hrun

/-- **The representation theorem.** In every run from creation the arrays list exactly the
positions that exist, and a position exists in virtual units exactly where it exists in real
units, whether computed as numbers or by the getters. -/
theorem positions_represented {controller : Controller} {factory self manager : Address}
    {components modules : List Address} {units : List Int} {calls : List Call}
    (hcreate : SetTokenCreator.create controller factory self components units modules manager = .ok s)
    (hrun : runs call s calls = .ok t) :
    t.components.Nodup ∧
    (∀ c, c ∈ t.components ↔
      0 < t.defaultPositionVirtualUnit c ∨ t.externalPositionModules c ≠ []) ∧
    (∀ c, (t.externalPositionModules c).Nodup) ∧
    (∀ c, ∀ m ∈ t.externalPositionModules c, t.externalPositionVirtualUnit c m ≠ 0 ∧
      t.externalRealUnit c m ≠ 0 ∧ ∀ r, t.getExternalPositionRealUnit c m = .ok r → r ≠ 0) ∧
    (∀ c m, m ∉ t.externalPositionModules c → t.externalPositionVirtualUnit c m = 0) ∧
    (∀ c, 0 < t.defaultPositionVirtualUnit c ↔ 0 < t.defaultRealUnit c) ∧
    (∀ c r, t.getDefaultPositionRealUnit c = .ok r →
      (0 < t.defaultPositionVirtualUnit c ↔ 0 < r)) := by
  have h := reachable_wellFormed hcreate hrun
  refine ⟨h.components.nodup, fun c => h.mem_components, fun c => (h.modules c).nodup,
    fun c m hm => ?_, fun c m hm => ?_, fun c => h.default_pos_iff, fun c r hr => ?_⟩
  · have hne := h.mem_externalPositionModules.mp hm
    have hreal := h.external_ne_zero_iff.mp hne
    refine ⟨hne, hreal, fun r hr => ?_⟩
    obtain ⟨_, rfl⟩ := getExternalPositionRealUnit_eq_ok.mp hr
    exact hreal
  · exact not_not.mp (mt h.mem_externalPositionModules.mpr hm)
  · obtain ⟨_, rfl⟩ := getDefaultPositionRealUnit_eq_ok.mp hr
    exact h.default_pos_iff

/-! A run in which the first component is closed, an external debt in a third is opened, and
a fee is charged. -/

def exampleController : Controller where
  isInitialized := true
  isSet := fun _ => false
  isFactory := fun a => a == 7
  isModule := fun a => a == 10
  fees := fun _ _ => 0
  feeRecipient := 8
  integrationAdapter := fun _ _ => 0

def exampleCalls : List Call :=
  [.initializeModule 10, .edit (.editDefaultPosition 10 1 0),
    .edit (.editExternalPosition 10 3 10 (-5) []),
    .edit (.editPositionMultiplier 10 (99 * 10 ^ 16))]

theorem positions_represented_example :
    ∃ s t, SetTokenCreator.create exampleController 7 20 [1, 2] [10 ^ 18, 5] [10] 9 = .ok s ∧
      runs call s exampleCalls = .ok t ∧ t.components = [2, 3] ∧
      ∀ c, c ∈ t.components ↔
        0 < t.defaultPositionVirtualUnit c ∨ t.externalPositionModules c ≠ [] := by
  have h : (components <$> (SetTokenCreator.create exampleController 7 20 [1, 2] [10 ^ 18, 5] [10] 9 >>=
      (runs call · exampleCalls))) = .ok [2, 3] := by decide +kernel
  simp only [map_eq_ok, bind_eq_ok] at h
  obtain ⟨t, ⟨s, hs, ht⟩, hcomponents⟩ := h
  exact ⟨s, t, hs, ht, hcomponents, (positions_represented hs ht).2.1⟩

end SetToken

end IndexProtocol
