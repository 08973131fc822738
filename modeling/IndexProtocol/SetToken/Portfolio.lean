import IndexProtocol.SetToken.Privileged

/-! What the positions of a SetToken amount to.

A portfolio gives every component a default unit and every position module an
external unit. The SetToken represents one by two kinds of arrays and a mapping
of virtual units. It is well formed when the arrays list exactly the positions
that exist and no positive unit has a real unit of zero. -/
namespace IndexProtocol
open Evm PreciseUnitMath

/-- Virtual units, by component and by component and module. -/
@[ext] structure Portfolio where
  default : Address → Int
  external : Address → Address → Int

namespace Portfolio

def setDefault (p : Portfolio) (component : Address) (unit : Int) : Portfolio :=
  { p with default := Function.update p.default component unit }

def setExternal (p : Portfolio) (component module : Address) (unit : Int) : Portfolio :=
  { p with
    external := Function.update p.external component
      (Function.update (p.external component) module unit) }

/-- Some position in the component exists. -/
def Holds (p : Portfolio) (component : Address) : Prop :=
  0 < p.default component ∨ ∃ module, p.external component module ≠ 0

/-- Units whose real counterparts have the same sign under a multiplier. -/
structure Sound (p : Portfolio) (multiplier : Int) : Prop where
  default_nonneg : ∀ c, 0 ≤ p.default c
  default_real : ∀ c, 0 < p.default c → 0 < SetToken.scale multiplier (p.default c)
  external_real : ∀ c m, 0 < p.external c m → 0 < SetToken.scale multiplier (p.external c m)

variable {p : Portfolio} {multiplier : Int} {component module : Address} {unit : Int}

@[simp] theorem setDefault_default_same : (p.setDefault component unit).default component = unit :=
  Function.update_self _ _ _

@[simp] theorem setDefault_default_of_ne {c : Address} (h : c ≠ component) :
    (p.setDefault component unit).default c = p.default c :=
  Function.update_of_ne h _ _

@[simp] theorem setDefault_external : (p.setDefault component unit).external = p.external := rfl

@[simp] theorem setExternal_default : (p.setExternal component module unit).default = p.default := rfl

@[simp] theorem setExternal_external_same :
    (p.setExternal component module unit).external component module = unit := by
  simp [setExternal]

theorem setExternal_external_of_ne {c m : Address} (h : ¬(c = component ∧ m = module)) :
    (p.setExternal component module unit).external c m = p.external c m := by
  by_cases hc : c = component
  · subst hc
    have hm : m ≠ module := fun hm => h ⟨rfl, hm⟩
    simp [setExternal, hm]
  · simp [setExternal, hc]

theorem holds_setDefault_same :
    (p.setDefault component unit).Holds component ↔
      0 < unit ∨ ∃ module, p.external component module ≠ 0 := by
  simp [Holds]

theorem holds_setDefault_of_ne {c : Address} (h : c ≠ component) :
    (p.setDefault component unit).Holds c ↔ p.Holds c := by
  simp [Holds, h]

theorem holds_setExternal_of_ne {c : Address} (h : c ≠ component) :
    (p.setExternal component module unit).Holds c ↔ p.Holds c := by
  have hcm (m : Address) : ¬(c = component ∧ m = module) := fun hcm => h hcm.1
  simp [Holds, setExternal_external_of_ne (hcm _)]

theorem Sound.setDefault (h : p.Sound multiplier) (hnonneg : 0 ≤ unit)
    (hreal : 0 < unit → 0 < SetToken.scale multiplier unit) :
    (p.setDefault component unit).Sound multiplier := by
  refine ⟨fun c => ?_, fun c => ?_, h.external_real⟩
  all_goals
    by_cases hc : c = component
    · subst hc
      simpa using ‹_›
    · simp only [setDefault_default_of_ne hc]
      first | exact h.default_nonneg c | exact h.default_real c

theorem Sound.setExternal (h : p.Sound multiplier)
    (hreal : 0 < unit → 0 < SetToken.scale multiplier unit) :
    (p.setExternal component module unit).Sound multiplier := by
  refine ⟨h.default_nonneg, h.default_real, fun c m => ?_⟩
  by_cases hcm : c = component ∧ m = module
  · obtain ⟨rfl, rfl⟩ := hcm
    simpa using hreal
  · rw [setExternal_external_of_ne hcm]
    exact h.external_real c m

end Portfolio

namespace SetToken

/-- The portfolio a SetToken represents. -/
def portfolio (s : SetToken) : Portfolio :=
  ⟨s.defaultPositionVirtualUnit, s.externalPositionVirtualUnit⟩

/-- The representation is the one of its portfolio. -/
structure WellFormed (s : SetToken) : Prop where
  multiplier_pos : 0 < s.positionMultiplier
  components : Lists s.components s.portfolio.Holds
  modules : ∀ c, Lists (s.externalPositionModules c) (fun m => s.portfolio.external c m ≠ 0)
  sound : s.portfolio.Sound s.positionMultiplier

variable {s : SetToken} {component module c : Address}

namespace WellFormed

theorem externalPositionModules_ne_nil (h : s.WellFormed) :
    s.externalPositionModules c ≠ [] ↔ ∃ module, s.portfolio.external c module ≠ 0 := by
  rw [Ne, (h.modules c).eq_nil_iff]
  push Not
  rfl

theorem mem_components (h : s.WellFormed) :
    c ∈ s.components ↔
      0 < s.defaultPositionVirtualUnit c ∨ s.externalPositionModules c ≠ [] := by
  rw [h.components.mem_iff, h.externalPositionModules_ne_nil]
  rfl

theorem default_pos_iff (h : s.WellFormed) :
    0 < s.defaultPositionVirtualUnit c ↔ 0 < s.defaultRealUnit c := by
  refine ⟨h.sound.default_real c, fun hreal => ?_⟩
  refine lt_of_le_of_ne (h.sound.default_nonneg c) fun hzero => ?_
  have hv : s.defaultPositionVirtualUnit c = 0 := hzero.symm
  rw [defaultRealUnit, hv, scale_zero] at hreal
  exact lt_irrefl 0 hreal

theorem defaultRealUnit_nonneg (h : s.WellFormed) : 0 ≤ s.defaultRealUnit c :=
  scale_nonneg h.multiplier_pos (h.sound.default_nonneg c)

theorem defaultRealUnit_of_notMem (h : s.WellFormed) (hc : c ∉ s.components) :
    s.defaultRealUnit c = 0 := by
  have hpos : ¬0 < s.defaultRealUnit c := fun hpos =>
    hc (h.mem_components.mpr (.inl (h.default_pos_iff.mpr hpos)))
  exact le_antisymm (not_lt.mp hpos) h.defaultRealUnit_nonneg

theorem external_ne_zero_iff (h : s.WellFormed) :
    s.externalPositionVirtualUnit c module ≠ 0 ↔ s.externalRealUnit c module ≠ 0 := by
  constructor
  · intro hv
    rcases lt_or_gt_of_ne hv with hneg | hpos
    · exact (scale_neg h.multiplier_pos hneg).ne
    · exact (h.sound.external_real c module hpos).ne'
  · intro hreal hv
    rw [externalRealUnit, hv, scale_zero] at hreal
    exact hreal rfl

theorem mem_externalPositionModules (h : s.WellFormed) :
    module ∈ s.externalPositionModules c ↔ s.externalPositionVirtualUnit c module ≠ 0 :=
  (h.modules c).mem_iff module

end WellFormed

theorem portfolio_congr {t : SetToken} (h : t.componentPositions = s.componentPositions) :
    t.portfolio = s.portfolio := by
  ext <;> simp [portfolio, defaultPositionVirtualUnit, externalPositionVirtualUnit, h]

/-- Two SetTokens that agree on the positions are well formed together. -/
theorem WellFormed.of_eq {t : SetToken} (h : s.WellFormed)
    (hcomponents : t.components = s.components)
    (hpositions : t.componentPositions = s.componentPositions)
    (hmultiplier : t.positionMultiplier = s.positionMultiplier) : t.WellFormed := by
  have hportfolio := portfolio_congr hpositions
  refine ⟨hmultiplier ▸ h.multiplier_pos, ?_, fun c => ?_, ?_⟩
  · rw [hcomponents, hportfolio]
    exact h.components
  · rw [hportfolio, externalPositionModules, hpositions]
    exact h.modules c
  · rw [hportfolio, hmultiplier]
    exact h.sound

end SetToken

end IndexProtocol
