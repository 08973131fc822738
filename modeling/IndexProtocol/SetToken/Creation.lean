import IndexProtocol.SetToken.Edits

/-! Creation of a SetToken, and what its positions satisfy from then on.

The creator checks what the constructor takes for granted. After it, modules
edit positions and the multiplier, mint and burn, and the manager adds and
removes modules, in any order; the Controller may change at any time. -/
namespace IndexProtocol
open Evm PreciseUnitMath

/-- The constructor's loop over components and units. -/
def SetToken.initPositions (positions : Address → ComponentPosition) :
    List (Address × Int) → Address → ComponentPosition
  | [] => positions
  | (component, unit) :: rest =>
    initPositions (Function.update positions component
      { positions component with virtualUnit := unit }) rest

/-- The constructor of a SetToken deployed at `self`. -/
def SetToken.construct (self : Address) (components : List Address) (units : List Int)
    (modules : List Address) (controller : Controller) (manager : Address) : SetToken where
  self := self
  erc20 := .empty
  controller := controller
  manager := manager
  locker := 0
  modules := []
  moduleStates := modules.foldl (fun states m => Function.update states m .pending) fun _ => .none
  isLocked := false
  components := components
  componentPositions := SetToken.initPositions (fun _ => .empty) (components.zip units)
  positionMultiplier := preciseUnitInt

namespace SetTokenCreator

/-- Called on the creator at `factory`; the new SetToken is deployed at `self`. -/
def create (controller : Controller) (factory self : Address) (components : List Address)
    (units : List Int) (modules : List Address) (manager : Address) : Result SetToken := do
  require (0 < components.length) "Must have at least 1 component"
  require (components.length = units.length) "Component and unit lengths must be the same"
  let duplicate ← AddressArrayUtils.hasDuplicate components
  require (duplicate = false) "Components must not have a duplicate"
  require (0 < modules.length) "Must have at least 1 module"
  require (manager ≠ 0) "Manager must not be empty"
  runs (fun _ (component, unit) => do
      require (component ≠ 0) "Component must not be null address"
      require (0 < unit) "Units must be greater than 0")
    () (components.zip units)
  runs (fun _ module => require (controller.isModule module = true) "Must be enabled module")
    () modules
  let setToken := SetToken.construct self components units modules controller manager
  let controller ← controller.addSet factory self
  pure { setToken with controller := controller }

end SetTokenCreator

namespace SetToken

/-! ### A new SetToken -/

section Construct
variable {l : List (Address × Int)}

theorem initPositions_of_notMem (positions : Address → ComponentPosition) {c : Address}
    (h : c ∉ l.map Prod.fst) : initPositions positions l c = positions c := by
  induction l generalizing positions with
  | nil => rfl
  | cons entry rest ih =>
    obtain ⟨component, unit⟩ := entry
    simp only [List.map_cons, List.mem_cons, not_or] at h
    rw [initPositions, ih _ h.2, Function.update_of_ne h.1]

/-- Listed components hold a positive default unit and no external one. -/
theorem initPositions_of_mem (positions : Address → ComponentPosition)
    (hpos : ∀ entry ∈ l, 0 < entry.2) {c : Address} (h : c ∈ l.map Prod.fst) :
    0 < (initPositions positions l c).virtualUnit := by
  induction l generalizing positions with
  | nil => simp at h
  | cons entry rest ih =>
    obtain ⟨component, unit⟩ := entry
    rw [initPositions]
    have hrest := fun entry hentry => hpos entry (List.mem_cons_of_mem _ hentry)
    by_cases hc : c ∈ rest.map Prod.fst
    · exact ih _ hrest hc
    · obtain rfl : c = component := by simpa [hc] using h
      rw [initPositions_of_notMem _ hc, Function.update_self]
      exact hpos _ List.mem_cons_self

theorem initPositions_external (positions : Address → ComponentPosition) (c : Address) :
    (initPositions positions l c).externalPositionModules =
        (positions c).externalPositionModules ∧
      (initPositions positions l c).externalPositions = (positions c).externalPositions := by
  induction l generalizing positions with
  | nil => exact ⟨rfl, rfl⟩
  | cons entry rest ih =>
    obtain ⟨component, unit⟩ := entry
    rw [initPositions]
    obtain ⟨hmodules, hpositions⟩ := ih (Function.update positions component
      { positions component with virtualUnit := unit })
    rw [hmodules, hpositions]
    by_cases hc : c = component
    · subst hc
      simp
    · simp [hc]

end Construct

theorem scale_preciseUnit (v : Int) : scale preciseUnitInt v = v :=
  Int.mul_ediv_cancel v preciseUnitInt_pos.ne'

theorem create_wellFormed {controller : Controller} {factory self manager : Address}
    {components modules : List Address} {units : List Int} {s : SetToken}
    (h : SetTokenCreator.create controller factory self components units modules manager = .ok s) :
    s.WellFormed := by
  simp only [SetTokenCreator.create, bind_eq_ok, require_eq_ok, exists_const, pure_eq_ok] at h
  obtain ⟨_, hlength, duplicate, hduplicate, rfl, _, _, _, hunits, _, _, _, _, rfl⟩ := h
  have hnodup := ArrayUtils.hasDuplicate_eq_false hduplicate
  have hpos : ∀ entry ∈ components.zip units, 0 < entry.2 := by
    refine (runs_each (R := fun (_ _ : Unit) => True) (Q := fun (e : Address × Int) _ => 0 < e.2)
      (fun _ => trivial) (fun _ _ => trivial) (fun h _ => h) (fun _ e _ he => ?_) hunits).2
    simp only [bind_eq_ok, require_eq_ok, exists_const] at he
    exact ⟨trivial, he.2⟩
  have hfst : (components.zip units).map Prod.fst = components :=
    List.map_fst_zip hlength.le
  have hexternal (c m : Address) :
      ((initPositions (fun _ => .empty) (components.zip units) c).externalPositions m).virtualUnit =
        0 := by
    rw [(initPositions_external _ c).2]
    rfl
  have hdefault (c : Address) :
      (c ∈ components → 0 < (initPositions (fun _ => .empty) (components.zip units) c).virtualUnit) ∧
      (c ∉ components →
        (initPositions (fun _ => .empty) (components.zip units) c).virtualUnit = 0) := by
    refine ⟨fun hc => initPositions_of_mem _ hpos (hfst.symm ▸ hc), fun hc => ?_⟩
    rw [initPositions_of_notMem _ (hfst.symm ▸ hc)]
    rfl
  refine ⟨preciseUnitInt_pos, ⟨hnodup, fun c => ?_⟩, fun c => ⟨?_, fun m => ?_⟩,
    fun c => ?_, fun c hc => ?_, fun c m hm => ?_⟩
  · refine ⟨fun hc => .inl ((hdefault c).1 hc), fun hc => ?_⟩
    by_contra hnot
    rcases hc with hc | ⟨m, hm⟩
    · exact absurd ((hdefault c).2 hnot) hc.ne'
    · exact hm (hexternal c m)
  · change (initPositions _ _ c).externalPositionModules.Nodup
    rw [(initPositions_external _ c).1]
    exact List.nodup_nil
  · change m ∈ (initPositions _ _ c).externalPositionModules ↔ _
    rw [(initPositions_external _ c).1]
    exact iff_of_false List.not_mem_nil fun hm => hm (hexternal c m)
  · change 0 ≤ (initPositions _ _ c).virtualUnit
    by_cases hc : c ∈ components
    · exact ((hdefault c).1 hc).le
    · exact ((hdefault c).2 hc).ge
  · exact (scale_preciseUnit _).symm ▸ hc
  · exact absurd (hexternal c m) hm.ne'

/-- A new SetToken has default positions only, and no shares. -/
theorem create_empty {controller : Controller} {factory self manager : Address}
    {components modules : List Address} {units : List Int} {s : SetToken}
    (h : SetTokenCreator.create controller factory self components units modules manager = .ok s) :
    s.totalSupply = 0 ∧ ∀ component, s.externalPositionModules component = [] := by
  simp only [SetTokenCreator.create, bind_eq_ok, pure_eq_ok] at h
  obtain ⟨_, _, _, _, _, _, _, _, _, _, _, _, _, _, _, _, _, _, rfl⟩ := h
  exact ⟨rfl, fun component => (initPositions_external _ component).1⟩

end SetToken

end IndexProtocol
