import IndexProtocol.SetToken.Position
import IndexProtocol.SetToken.Portfolio

/-! The edits of the Position library, as edits of the portfolio.

Editing a default or an external position writes one unit of the portfolio and
leaves a well-formed SetToken. The cases follow the library: a position is
opened, closed or changed, and the component has other positions or not. -/
namespace IndexProtocol
open Evm PreciseUnitMath

namespace SetToken
variable {s t : SetToken} {sender component module c : Address}

/-- Replaces the array of components. -/
def withComponents (s : SetToken) (components : List Address) : SetToken :=
  { s with components := components }

@[simp] theorem withComponents_self : s.withComponents s.components = s := rfl

@[simp] theorem withComponents_portfolio (l : List Address) :
    (s.withComponents l).portfolio = s.portfolio := rfl

@[simp] theorem withComponents_components (l : List Address) :
    (s.withComponents l).components = l := rfl

@[simp] theorem withComponents_positionMultiplier (l : List Address) :
    (s.withComponents l).positionMultiplier = s.positionMultiplier := rfl

@[simp] theorem withComponents_modules (l : List Address) :
    (s.withComponents l).externalPositionModules c = s.externalPositionModules c := rfl

@[simp] theorem withComponents_convertRealToVirtualUnit (l : List Address) (r : Int) :
    (s.withComponents l).convertRealToVirtualUnit r = s.convertRealToVirtualUnit r := rfl

/-! ### Writing one unit -/

def setDefaultUnit (s : SetToken) (component : Address) (unit : Int) : SetToken :=
  s.updatePosition component fun p => { p with virtualUnit := unit }

/-- Writes an external position and the array of position modules. -/
def setExternalPosition (s : SetToken) (component module : Address) (modules : List Address)
    (position : ExternalPosition) : SetToken :=
  s.updatePosition component fun p =>
    { p with
      externalPositionModules := modules
      externalPositions := Function.update p.externalPositions module position }

@[simp] theorem setDefaultUnit_components (unit : Int) :
    (s.setDefaultUnit component unit).components = s.components := rfl

@[simp] theorem setDefaultUnit_positionMultiplier (unit : Int) :
    (s.setDefaultUnit component unit).positionMultiplier = s.positionMultiplier := rfl

@[simp] theorem setExternalPosition_components (l : List Address) (position : ExternalPosition) :
    (s.setExternalPosition component module l position).components = s.components := rfl

@[simp] theorem setExternalPosition_positionMultiplier (l : List Address)
    (position : ExternalPosition) :
    (s.setExternalPosition component module l position).positionMultiplier =
      s.positionMultiplier := rfl

@[simp] theorem setDefaultUnit_portfolio (unit : Int) :
    (s.setDefaultUnit component unit).portfolio = s.portfolio.setDefault component unit := by
  ext c
  · by_cases hc : c = component
    · subst hc
      simp [portfolio, setDefaultUnit, defaultPositionVirtualUnit]
    · simp [portfolio, setDefaultUnit, defaultPositionVirtualUnit, hc]
  · by_cases hc : c = component
    · subst hc
      simp [portfolio, setDefaultUnit, externalPositionVirtualUnit]
    · simp [portfolio, setDefaultUnit, externalPositionVirtualUnit, hc]

@[simp] theorem setDefaultUnit_modules (unit : Int) :
    (s.setDefaultUnit component unit).externalPositionModules c = s.externalPositionModules c := by
  by_cases hc : c = component
  · subst hc
    simp [setDefaultUnit, externalPositionModules]
  · simp [setDefaultUnit, externalPositionModules, hc]

@[simp] theorem setExternalPosition_portfolio (l : List Address) (position : ExternalPosition) :
    (s.setExternalPosition component module l position).portfolio =
      s.portfolio.setExternal component module position.virtualUnit := by
  ext c m
  · by_cases hc : c = component
    · subst hc
      simp [portfolio, setExternalPosition, defaultPositionVirtualUnit]
    · simp [portfolio, setExternalPosition, defaultPositionVirtualUnit, hc]
  · by_cases hc : c = component
    · subst hc
      by_cases hm : m = module
      · subst hm
        simp [portfolio, setExternalPosition, externalPositionVirtualUnit]
      · have hcm : ¬(c = c ∧ m = module) := fun h => hm h.2
        rw [Portfolio.setExternal_external_of_ne hcm]
        simp [portfolio, setExternalPosition, externalPositionVirtualUnit, hm]
    · have hcm : ¬(c = component ∧ m = module) := fun h => hc h.1
      rw [Portfolio.setExternal_external_of_ne hcm]
      simp [portfolio, setExternalPosition, externalPositionVirtualUnit, hc]

@[simp] theorem setExternalPosition_modules_same (l : List Address) (position : ExternalPosition) :
    (s.setExternalPosition component module l position).externalPositionModules component = l := by
  simp [setExternalPosition, externalPositionModules]

@[simp] theorem setExternalPosition_modules_of_ne (l : List Address) (position : ExternalPosition)
    (hc : c ≠ component) :
    (s.setExternalPosition component module l position).externalPositionModules c =
      s.externalPositionModules c := by
  simp [setExternalPosition, externalPositionModules, hc]

theorem setExternalPosition_position_same (l : List Address) (position : ExternalPosition) :
    ((s.setExternalPosition component module l position).componentPositions
      component).externalPositions module = position := by
  simp [setExternalPosition]

theorem setExternalPosition_position_of_ne {m : Address} (l : List Address)
    (position : ExternalPosition) (h : ¬(c = component ∧ m = module)) :
    ((s.setExternalPosition component module l position).componentPositions c).externalPositions m =
      (s.componentPositions c).externalPositions m := by
  by_cases hc : c = component
  · subst hc
    have hm : m ≠ module := fun hm => h ⟨rfl, hm⟩
    simp [setExternalPosition, hm]
  · simp [setExternalPosition, hc]

/-! ### The unit written -/

/-- The virtual unit has the sign of the real unit. -/
theorem convertRealToVirtualUnit_sign (hm : 0 < s.positionMultiplier) {r v : Int}
    (h : s.convertRealToVirtualUnit r = .ok v) :
    (0 < r → 0 < v) ∧ (r = 0 → v = 0) ∧ (r < 0 → v < 0) ∧
      (0 < v → 0 < scale s.positionMultiplier v) := by
  obtain ⟨_, hv, hpos⟩ := (convertRealToVirtualUnit_eq_ok hm).mp h
  have hneg : r < 0 → v < 0 := fun hr => by
    rw [← hv]
    exact Rounding.floor_neg (Int.mul_neg_of_neg_of_pos hr preciseUnitInt_pos) hm
  have hzero : r = 0 → v = 0 := fun hr => by
    rw [← hv, hr, Int.zero_mul, Int.zero_ediv]
  have hposv : 0 < r → 0 < v := fun hr => by
    by_contra hv'
    have hscale := (hpos hr).2
    rcases lt_or_eq_of_le (not_lt.mp hv') with hlt | rfl
    · exact absurd (scale_neg hm hlt) (not_lt.mpr hscale.le)
    · rw [scale_zero] at hscale
      exact lt_irrefl 0 hscale
  refine ⟨hposv, hzero, hneg, fun hv0 => ?_⟩
  rcases lt_trichotomy r 0 with hr | hr | hr
  · exact absurd (hneg hr) (not_lt.mpr hv0.le)
  · exact absurd (hzero hr) hv0.ne'
  · exact (hpos hr).2

theorem convertRealToVirtualUnit_zero (hm : 0 < s.positionMultiplier) :
    s.convertRealToVirtualUnit 0 = .ok 0 := by
  refine (convertRealToVirtualUnit_eq_ok hm).mpr ⟨?_, by simp, fun h => absurd h (lt_irrefl 0)⟩
  rw [Int.zero_mul]
  decide

/-! ### Editing a default position -/

theorem WellFormed.hasDefaultPosition (h : s.WellFormed) {found : Bool}
    (hf : Position.hasDefaultPosition s component = .ok found) :
    found = true ↔ 0 < s.portfolio.default component := by
  simp only [Position.hasDefaultPosition, bind_eq_ok, getDefaultPositionRealUnit_eq_ok,
    pure_eq_ok] at hf
  obtain ⟨_, ⟨_, rfl⟩, rfl⟩ := hf
  rw [decide_eq_true_iff, ← h.default_pos_iff]
  rfl

theorem WellFormed.hasExternalPosition (h : s.WellFormed) :
    Position.hasExternalPosition s component = true ↔
      ∃ module, s.portfolio.external component module ≠ 0 := by
  rw [← h.externalPositionModules_ne_nil, Position.hasExternalPosition, decide_eq_true_iff,
    List.length_pos_iff]

/-- The array of components while a default unit is written. -/
theorem trackDefaultPosition_eq (h : s.WellFormed) {found : Bool} {newUnit : Nat}
    (hfound : Position.hasDefaultPosition s component = .ok found)
    (he : Position.trackDefaultPosition s sender component found newUnit = .ok t) :
    ∃ l, t = s.withComponents l ∧ ∀ unit, s.convertRealToVirtualUnit newUnit = .ok unit →
      Lists l (s.portfolio.setDefault component unit).Holds := by
  have hfound' := h.hasDefaultPosition hfound
  have hhas : Position.hasExternalPosition s component = true ↔
      ∃ module, s.portfolio.external component module ≠ 0 := h.hasExternalPosition
  have hoff (unit : Int) (c : Address) (hc : c ≠ component) :
      (s.portfolio.setDefault component unit).Holds c ↔ s.portfolio.Holds c :=
    Portfolio.holds_setDefault_of_ne hc
  have hsame (unit : Int) : (s.portfolio.setDefault component unit).Holds component ↔
      0 < unit ∨ ∃ module, s.portfolio.external component module ≠ 0 :=
    Portfolio.holds_setDefault_same
  have hstay (hext : ¬Position.hasExternalPosition s component = false) (unit : Int) :
      Lists s.components (s.portfolio.setDefault component unit).Holds := by
    have hex := hhas.mp (by simpa using hext)
    exact h.components.keep (hoff unit) (iff_of_true ((hsame unit).mpr (.inr hex)) (.inr hex))
  unfold Position.trackDefaultPosition at he
  split_ifs at he with hopen hext hclose hext
  · -- A first position of the component: push it.
    obtain ⟨_, hnot, rfl⟩ := addComponent_eq_ok.mp he
    refine ⟨_, rfl, fun unit hunit => ?_⟩
    have hpos := (convertRealToVirtualUnit_sign h.multiplier_pos hunit).1
    exact h.components.push (hoff unit) (fun hc => hnot ((h.components.mem_iff _).mpr hc))
      ((hsame unit).mpr (.inl (hpos (Int.natCast_pos.mpr hopen.2))))
  · obtain rfl : s = t := by simpa using he
    exact ⟨s.components, rfl, fun unit _ => hstay hext unit⟩
  · -- The last position of the component: remove it.
    obtain ⟨_, l, hl, rfl⟩ := removeComponent_eq_ok.mp he
    refine ⟨l, rfl, fun unit hunit => ?_⟩
    have hzero := (convertRealToVirtualUnit_sign h.multiplier_pos hunit).2.1 (by simp [hclose.2])
    refine h.components.remove (ArrayUtils.removeStorage_eq_ok hl).2 (hoff unit) ?_
    rw [hsame, hzero, ← hhas, hext]
    simp
  · obtain rfl : s = t := by simpa using he
    exact ⟨s.components, rfl, fun unit _ => hstay hext unit⟩
  · -- The position stays, or stays away.
    obtain rfl : s = t := by simpa using he
    refine ⟨s.components, rfl, fun unit hunit => h.components.keep (hoff unit) ?_⟩
    obtain ⟨hpos, hzero, _⟩ := convertRealToVirtualUnit_sign h.multiplier_pos hunit
    rw [hsame]
    refine or_congr ?_ Iff.rfl
    rw [← hfound']
    cases found with
    | true =>
      have hnew : newUnit ≠ 0 := fun h0 => hclose ⟨rfl, h0⟩
      simp [hpos (by omega)]
    | false =>
      have hnew : ¬0 < newUnit := fun h0 => hopen ⟨rfl, h0⟩
      simp [hzero (by omega)]

/-- What `editDefaultPosition` writes. -/
theorem editDefaultPosition_eq {newUnit : Nat} (h : s.WellFormed)
    (he : Position.editDefaultPosition s sender component newUnit = .ok t) :
    ∃ l unit, s.convertRealToVirtualUnit newUnit = .ok unit ∧ s.Privileged sender ∧
      t = (s.withComponents l).setDefaultUnit component unit ∧
      Lists l (s.portfolio.setDefault component unit).Holds := by
  simp only [Position.editDefaultPosition, bind_eq_ok, SafeCast.toInt256_eq_ok,
    editDefaultPositionUnit_eq_ok] at he
  obtain ⟨found, hfound, s₁, htrack, _, ⟨_, rfl⟩, hpriv, unit, hunit, rfl⟩ := he
  obtain ⟨l, rfl, hl⟩ := trackDefaultPosition_eq h hfound htrack
  exact ⟨l, unit, hunit, ⟨hpriv.1, hpriv.2, hpriv.3⟩, rfl, hl unit hunit⟩

/-! ### Editing an external position -/

/-- The arrays while an external unit is written. They stay where the position was there. -/
theorem trackExternalPosition_eq (h : s.WellFormed)
    (he : Position.trackExternalPosition s sender component module = .ok t) :
    ∃ l mods, t = (s.withComponents l).updatePosition component
        (fun p => { p with externalPositionModules := mods }) ∧
      (s.portfolio.external component module ≠ 0 →
        l = s.components ∧ mods = s.externalPositionModules component) ∧
      ∀ unit ≠ 0, Lists l (s.portfolio.setExternal component module unit).Holds ∧
        Lists mods fun m =>
          (s.portfolio.setExternal component module unit).external component m ≠ 0 := by
  have hoff (unit : Int) (c : Address) (hc : c ≠ component) :
      (s.portfolio.setExternal component module unit).Holds c ↔ s.portfolio.Holds c :=
    Portfolio.holds_setExternal_of_ne hc
  have hsame {unit : Int} (hunit : unit ≠ 0) :
      (s.portfolio.setExternal component module unit).external component module ≠ 0 := by
    simpa using hunit
  have hoffm (unit : Int) (m : Address) (hm : m ≠ module) :
      (s.portfolio.setExternal component module unit).external component m ≠ 0 ↔
        s.portfolio.external component m ≠ 0 := by
    rw [Portfolio.setExternal_external_of_ne fun h => hm h.2]
  have hmem := (h.modules component).mem_iff module
  have hpush (hnot : module ∉ s.externalPositionModules component) {unit : Int} (hunit : unit ≠ 0) :=
    (h.modules component).push (hoffm unit) (fun hm => hnot (hmem.mpr hm)) (hsame hunit)
  unfold Position.trackExternalPosition at he
  split_ifs at he with hcomponent hmodule
  · -- The component is new, so no module of it was listed.
    simp only [bind_eq_ok, addComponent_eq_ok, addExternalPositionModule_eq_ok] at he
    obtain ⟨_, ⟨_, hnot, rfl⟩, _, hnotm, rfl⟩ := he
    have hholds : ¬s.portfolio.Holds component := fun hc => hnot ((h.components.mem_iff _).mpr hc)
    exact ⟨s.components ++ [component], _, rfl, fun hne => absurd (.inr ⟨module, hne⟩) hholds,
      fun unit hunit => ⟨h.components.push (hoff unit) hholds (.inr ⟨module, hsame hunit⟩),
        hpush hnotm hunit⟩⟩
  · obtain ⟨_, hnotm, rfl⟩ := addExternalPositionModule_eq_ok.mp he
    have hholds : s.portfolio.Holds component :=
      (h.components.mem_iff _).mp (isComponent_eq_true.mp (by simpa using hcomponent))
    exact ⟨s.components, _, rfl, fun hne => absurd (hmem.mpr hne) hnotm, fun unit hunit =>
      ⟨h.components.keep (hoff unit) (iff_of_true (.inr ⟨module, hsame hunit⟩) hholds),
        hpush hnotm hunit⟩⟩
  · obtain rfl : s = t := by simpa using he
    have hne : s.portfolio.external component module ≠ 0 :=
      hmem.mp (isExternalPositionModule_eq_true.mp (by simpa using hmodule))
    refine ⟨s.components, s.externalPositionModules component, ?_, fun _ => ⟨rfl, rfl⟩,
      fun unit hunit => ⟨h.components.keep (hoff unit)
          (iff_of_true (.inr ⟨module, hsame hunit⟩) (.inr ⟨module, hne⟩)),
        (h.modules component).keep (hoffm unit) (iff_of_true (hsame hunit) hne)⟩⟩
    simp [updatePosition, externalPositionModules]

/-- The array of components after a position is closed. -/
theorem untrackComponent_eq (h : s.WellFormed)
    (hne : s.portfolio.external component module ≠ 0)
    {defaultUnit : Int} (hdefault : s.getDefaultPositionRealUnit component = .ok defaultUnit)
    (he : Position.untrackComponent s sender component module defaultUnit = .ok t) :
    ∃ l, t = s.withComponents l ∧
      Lists l (s.portfolio.setExternal component module 0).Holds := by
  have hoff (c : Address) (hc : c ≠ component) :
      (s.portfolio.setExternal component module 0).Holds c ↔ s.portfolio.Holds c :=
    Portfolio.holds_setExternal_of_ne hc
  have hoffm (m : Address) (hm : m ≠ module) :
      (s.portfolio.setExternal component module 0).external component m =
        s.portfolio.external component m :=
    Portfolio.setExternal_external_of_ne fun h => hm h.2
  obtain ⟨_, rfl⟩ := getDefaultPositionRealUnit_eq_ok.mp hdefault
  simp only [Position.untrackComponent] at he
  split_ifs at he with hlast
  · -- The last position of the component: its only module is the one closed.
    simp only [bind_eq_ok, require_eq_ok, exists_const, removeComponent_eq_ok] at he
    obtain ⟨hfirst, _, l, hl, rfl⟩ := he
    refine ⟨l, rfl, h.components.remove (ArrayUtils.removeStorage_eq_ok hl).2 hoff ?_⟩
    rintro (hpos | ⟨m, hm⟩)
    · exact absurd hlast.1 (h.default_pos_iff.mp hpos).ne'
    · by_cases hmm : m = module
      · subst hmm
        exact hm Portfolio.setExternal_external_same
      · rw [hoffm m hmm] at hm
        have hmem := (h.modules component).mem_iff m |>.mpr hm
        obtain ⟨a, ha⟩ := List.length_eq_one_iff.mp hlast.2
        rw [ha] at hfirst hmem
        obtain rfl : a = module := by simpa using hfirst
        exact hmm (List.mem_singleton.mp hmem)
  · obtain rfl : s = t := by simpa using he
    refine ⟨s.components, rfl, h.components.keep hoff (iff_of_true ?_ (.inr ⟨module, hne⟩))⟩
    by_cases hzero : s.defaultRealUnit component = 0
    · -- Another module is listed.
      have hmem := (h.modules component).mem_iff module |>.mpr hne
      obtain ⟨m, hm, hmm⟩ : ∃ m ∈ s.externalPositionModules component, m ≠ module := by
        by_contra hall
        push Not at hall
        have hsub : s.externalPositionModules component ⊆ [module] := fun m hm => by simp [hall m hm]
        have := ((h.modules component).nodup.subperm hsub).length_le
        have := List.length_pos_of_mem hmem
        exact hlast ⟨hzero, by simp at *; omega⟩
      refine .inr ⟨m, ?_⟩
      rw [hoffm m hmm]
      exact (h.modules component).mem_iff m |>.mp hm
    · exact .inl (h.default_pos_iff.mpr (lt_of_le_of_ne h.defaultRealUnit_nonneg (Ne.symm hzero)))

/-- What `editExternalPosition` writes. Only closing a position that is not there writes nothing. -/
theorem editExternalPosition_eq {newUnit : Int} {data : List UInt8} (h : s.WellFormed)
    (he : Position.editExternalPosition s sender component module newUnit data = .ok t) :
    (newUnit = 0 ∧ s.portfolio.external component module = 0 ∧ t = s) ∨
    ∃ l mods unit, s.convertRealToVirtualUnit newUnit = .ok unit ∧ s.Privileged sender ∧
      t = (s.withComponents l).setExternalPosition component module mods ⟨unit, data⟩ ∧
      Lists l (s.portfolio.setExternal component module unit).Holds ∧
      Lists mods (fun m => (s.portfolio.setExternal component module unit).external component m ≠ 0) ∧
      (newUnit ≠ 0 → s.portfolio.external component module ≠ 0 →
        l = s.components ∧ mods = s.externalPositionModules component) := by
  unfold Position.editExternalPosition at he
  split_ifs at he with hnew
  · right
    simp only [bind_eq_ok, editExternalPositionUnit_eq_ok, editExternalPositionData_eq_ok] at he
    obtain ⟨s₁, htrack, s₂, ⟨hpriv, unit, hunit, rfl⟩, _, rfl⟩ := he
    obtain ⟨l, mods, rfl, hkeep, hlists⟩ := trackExternalPosition_eq h htrack
    have hne : unit ≠ 0 := by
      obtain ⟨hpos, _, hneg, _⟩ := convertRealToVirtualUnit_sign h.multiplier_pos hunit
      rcases lt_or_gt_of_ne hnew with hr | hr
      · exact (hneg hr).ne
      · exact (hpos hr).ne'
    refine ⟨l, mods, unit, hunit, ⟨hpriv.1, hpriv.2, hpriv.3⟩, ?_, (hlists unit hne).1,
      (hlists unit hne).2, fun _ => hkeep⟩
    simp only [updatePosition_updatePosition, setExternalPosition]
    congr 1
    funext p
    simp
  · simp only [bind_eq_ok, require_eq_ok, exists_const, getExternalPositionRealUnit_eq_ok] at he
    obtain ⟨hdata, _, ⟨_, rfl⟩, he⟩ := he
    have hnew : newUnit = 0 := by simpa using hnew
    split_ifs at he with hreal
    · right
      have hne : s.portfolio.external component module ≠ 0 := h.external_ne_zero_iff.mpr hreal
      simp only [bind_eq_ok, removeExternalPositionModule_eq_ok] at he
      obtain ⟨_, hdefault, s₁, huntrack, hpriv, mods, hmods, rfl⟩ := he
      obtain ⟨l, rfl, hl⟩ := untrackComponent_eq h hne hdefault huntrack
      refine ⟨l, mods, 0, ?_, ⟨hpriv.1, hpriv.2, hpriv.3⟩, ?_, hl, ?_, fun h0 => absurd hnew h0⟩
      · rw [hnew]
        exact convertRealToVirtualUnit_zero h.multiplier_pos
      · rw [List.eq_nil_of_length_eq_zero hdata]
        rfl
      · refine (h.modules component).remove (ArrayUtils.removeStorage_eq_ok hmods).2 (fun m hm => ?_)
          (by simp)
        rw [Portfolio.setExternal_external_of_ne fun h => hm h.2]
    · left
      obtain rfl : s = t := by simpa using he
      refine ⟨hnew, ?_, rfl⟩
      by_contra hne
      exact hreal (h.external_ne_zero_iff.mp hne)

/-- Writing the unit and the data that are there changes nothing. -/
theorem editExternalPosition_self {realUnit unit : Int} {data : List UInt8} (h : s.WellFormed)
    (hprivileged : s.Privileged sender) (hreal : realUnit ≠ 0)
    (hunit : s.convertRealToVirtualUnit realUnit = .ok unit)
    (hposition : (s.componentPositions component).externalPositions module = ⟨unit, data⟩) :
    Position.editExternalPosition s sender component module realUnit data = .ok s := by
  have hvirtual : s.externalPositionVirtualUnit component module = unit := by
    rw [externalPositionVirtualUnit, hposition]
  have hne : s.externalPositionVirtualUnit component module ≠ 0 := by
    obtain ⟨hpos, _, hneg, _⟩ := convertRealToVirtualUnit_sign h.multiplier_pos hunit
    rw [hvirtual]
    rcases lt_or_gt_of_ne hreal with hlt | hgt
    · exact (hneg hlt).ne
    · exact (hpos hgt).ne'
  have hmodule := h.mem_externalPositionModules.mpr hne
  have hcomponent := h.mem_components.mpr (.inr (List.ne_nil_of_mem hmodule))
  have htrack : Position.trackExternalPosition s sender component module = .ok s := by
    unfold Position.trackExternalPosition
    rw [isComponent_eq_true.mpr hcomponent, isExternalPositionModule_eq_true.mpr hmodule]
    rfl
  have hwrite : ∀ position, position = ExternalPosition.mk unit data →
      s.updatePosition component (fun p =>
        { p with externalPositions := Function.update p.externalPositions module position }) = s := by
    rintro _ rfl
    simp [updatePosition, ← hposition]
  have hedit : s.editExternalPositionUnit sender component module realUnit = .ok s := by
    refine editExternalPositionUnit_eq_ok.mpr ⟨hprivileged, unit, hunit, ?_⟩
    conv_rhs => rw [← hwrite _ rfl]
    simp [updatePosition, hposition]
  have hdata : s.editExternalPositionData sender component module data = .ok s := by
    refine editExternalPositionData_eq_ok.mpr ⟨hprivileged, ?_⟩
    conv_rhs => rw [← hwrite _ rfl]
    simp [updatePosition, hposition]
  simp [Position.editExternalPosition, hreal, htrack, hedit, hdata]

/-! ### The edits keep the representation -/

/-- Nothing but the arrays and the positions is written. -/
def OnlyPositions (s t : SetToken) : Prop :=
  { s with components := t.components, componentPositions := t.componentPositions } = t

theorem OnlyPositions.refl (s : SetToken) : s.OnlyPositions s := rfl

theorem OnlyPositions.trans {u : SetToken} (h : s.OnlyPositions t) (h' : t.OnlyPositions u) :
    s.OnlyPositions u := by
  rw [OnlyPositions, ← h] at h'
  exact h'

section Only
variable (h : s.OnlyPositions t)
include h

theorem OnlyPositions.self : t.self = s.self := (congrArg SetToken.self h).symm

theorem OnlyPositions.totalSupply : t.totalSupply = s.totalSupply :=
  (congrArg SetToken.totalSupply h).symm

theorem OnlyPositions.positionMultiplier : t.positionMultiplier = s.positionMultiplier :=
  (congrArg SetToken.positionMultiplier h).symm

theorem OnlyPositions.privileged_iff : t.Privileged sender ↔ s.Privileged sender := by
  rw [← h]
  exact ⟨fun hp => ⟨hp.1, hp.2, hp.3⟩, fun hp => ⟨hp.1, hp.2, hp.3⟩⟩

theorem OnlyPositions.convertRealToVirtualUnit (r : Int) :
    t.convertRealToVirtualUnit r = s.convertRealToVirtualUnit r := by
  rw [← h]
  rfl

theorem OnlyPositions.getExternalPositionRealUnit
    (hposition : (t.componentPositions c).externalPositions module =
      (s.componentPositions c).externalPositions module) :
    t.getExternalPositionRealUnit c module = s.getExternalPositionRealUnit c module := by
  rw [SetToken.getExternalPositionRealUnit, SetToken.getExternalPositionRealUnit,
    externalPositionVirtualUnit, externalPositionVirtualUnit, hposition,
    SetToken.convertVirtualToRealUnit, SetToken.convertVirtualToRealUnit, h.positionMultiplier]

end Only

theorem OnlyPositions.of_eq (h : s = t) : s.OnlyPositions t := h ▸ .refl s

theorem updatePosition_only (f : ComponentPosition → ComponentPosition) :
    s.OnlyPositions (s.updatePosition component f) := rfl

theorem addComponent_only (h : s.addComponent sender component = .ok t) : s.OnlyPositions t := by
  obtain ⟨_, _, rfl⟩ := addComponent_eq_ok.mp h
  rfl

theorem removeComponent_only (h : s.removeComponent sender component = .ok t) :
    s.OnlyPositions t := by
  obtain ⟨_, _, _, rfl⟩ := removeComponent_eq_ok.mp h
  rfl

theorem addExternalPositionModule_only
    (h : s.addExternalPositionModule sender component module = .ok t) : s.OnlyPositions t := by
  obtain ⟨_, _, rfl⟩ := addExternalPositionModule_eq_ok.mp h
  rfl

theorem trackDefaultPosition_only {found : Bool} {newUnit : Nat}
    (h : Position.trackDefaultPosition s sender component found newUnit = .ok t) :
    s.OnlyPositions t := by
  unfold Position.trackDefaultPosition at h
  split_ifs at h
  · exact addComponent_only h
  · exact .of_eq (pure_eq_ok.mp h)
  · exact removeComponent_only h
  · exact .of_eq (pure_eq_ok.mp h)
  · exact .of_eq (pure_eq_ok.mp h)

theorem editDefaultPosition_only {newUnit : Nat}
    (h : Position.editDefaultPosition s sender component newUnit = .ok t) : s.OnlyPositions t := by
  simp only [Position.editDefaultPosition, bind_eq_ok] at h
  obtain ⟨_, _, s₁, htrack, _, _, hedit⟩ := h
  obtain ⟨_, _, _, rfl⟩ := editDefaultPositionUnit_eq_ok.mp hedit
  exact (trackDefaultPosition_only htrack).trans (updatePosition_only _)

theorem trackExternalPosition_only
    (h : Position.trackExternalPosition s sender component module = .ok t) : s.OnlyPositions t := by
  unfold Position.trackExternalPosition at h
  split_ifs at h
  · obtain ⟨s₁, hadd, h⟩ := bind_eq_ok.mp h
    exact (addComponent_only hadd).trans (addExternalPositionModule_only h)
  · exact addExternalPositionModule_only h
  · exact .of_eq (pure_eq_ok.mp h)

theorem untrackComponent_only {defaultUnit : Int}
    (h : Position.untrackComponent s sender component module defaultUnit = .ok t) :
    s.OnlyPositions t := by
  unfold Position.untrackComponent at h
  dsimp only at h
  split_ifs at h
  · obtain ⟨_, _, h⟩ := bind_eq_ok.mp h
    exact removeComponent_only h
  · exact .of_eq (pure_eq_ok.mp h)

theorem editExternalPosition_only {newUnit : Int} {data : List UInt8}
    (h : Position.editExternalPosition s sender component module newUnit data = .ok t) :
    s.OnlyPositions t := by
  unfold Position.editExternalPosition at h
  split_ifs at h
  · simp only [bind_eq_ok] at h
    obtain ⟨s₁, htrack, s₂, hunit, hdata⟩ := h
    obtain ⟨_, _, _, rfl⟩ := editExternalPositionUnit_eq_ok.mp hunit
    obtain ⟨_, rfl⟩ := editExternalPositionData_eq_ok.mp hdata
    exact (trackExternalPosition_only htrack).trans
      ((updatePosition_only _).trans (updatePosition_only _))
  · simp only [bind_eq_ok] at h
    obtain ⟨_, _, realUnit, _, h⟩ := h
    split_ifs at h
    · obtain ⟨_, _, h⟩ := bind_eq_ok.mp h
      obtain ⟨s₁, huntrack, hremove⟩ := bind_eq_ok.mp h
      obtain ⟨_, _, _, rfl⟩ := removeExternalPositionModule_eq_ok.mp hremove
      exact (untrackComponent_only huntrack).trans (updatePosition_only _)
    · exact .of_eq (pure_eq_ok.mp h)

/-- The SetToken with one default unit written, and the components listed anew. -/
theorem WellFormed.setDefaultUnit (h : s.WellFormed) {l : List Address} {unit : Int}
    (hl : Lists l (s.portfolio.setDefault component unit).Holds)
    (hsound : (s.portfolio.setDefault component unit).Sound s.positionMultiplier) :
    ((s.withComponents l).setDefaultUnit component unit).WellFormed := by
  refine ⟨h.multiplier_pos, ?_, fun c => ?_, ?_⟩
  · simpa using hl
  · simpa using h.modules c
  · simpa using hsound

theorem WellFormed.setExternalPosition (h : s.WellFormed) {l mods : List Address}
    {position : ExternalPosition}
    (hl : Lists l (s.portfolio.setExternal component module position.virtualUnit).Holds)
    (hmods : Lists mods fun m =>
      (s.portfolio.setExternal component module position.virtualUnit).external component m ≠ 0)
    (hsound : (s.portfolio.setExternal component module position.virtualUnit).Sound
      s.positionMultiplier) :
    ((s.withComponents l).setExternalPosition component module mods position).WellFormed := by
  refine ⟨h.multiplier_pos, ?_, fun c => ?_, ?_⟩
  · simpa using hl
  · rw [setExternalPosition_portfolio]
    by_cases hc : c = component
    · subst hc
      simpa using hmods
    · rw [setExternalPosition_modules_of_ne _ _ hc]
      refine (h.modules c).of_iff fun m => ?_
      rw [withComponents_portfolio, Portfolio.setExternal_external_of_ne fun h => hc h.1]
  · simpa using hsound

theorem editDefaultPosition_wellFormed {newUnit : Nat} (h : s.WellFormed)
    (he : Position.editDefaultPosition s sender component newUnit = .ok t) : t.WellFormed := by
  obtain ⟨l, unit, hunit, _, rfl, hl⟩ := editDefaultPosition_eq h he
  obtain ⟨hpos, hzero, _, hreal⟩ := convertRealToVirtualUnit_sign h.multiplier_pos hunit
  refine h.setDefaultUnit hl (h.sound.setDefault ?_ hreal)
  rcases Nat.eq_zero_or_pos newUnit with h0 | h0
  · exact (hzero (by simp [h0])).ge
  · exact (hpos (Int.natCast_pos.mpr h0)).le

theorem editExternalPosition_wellFormed {newUnit : Int} {data : List UInt8} (h : s.WellFormed)
    (he : Position.editExternalPosition s sender component module newUnit data = .ok t) :
    t.WellFormed := by
  obtain ⟨_, _, rfl⟩ | ⟨l, mods, unit, hunit, _, rfl, hl, hmods, _⟩ := editExternalPosition_eq h he
  · exact h
  · exact h.setExternalPosition hl hmods
      (h.sound.setExternal (convertRealToVirtualUnit_sign h.multiplier_pos hunit).2.2.2)

theorem editPositionMultiplier_wellFormed {newMultiplier : Int} (h : s.WellFormed)
    (he : s.editPositionMultiplier sender newMultiplier = .ok t) : t.WellFormed := by
  obtain ⟨_, ⟨_, hvalid⟩, rfl⟩ := editPositionMultiplier_eq_ok.mp he
  obtain ⟨hpos, hreal⟩ := validateNewMultiplier_pos hvalid
  refine ⟨hpos, h.components, h.modules, h.sound.default_nonneg, fun c hc => ?_, fun c m hm => ?_⟩
  · exact (hreal c (h.mem_components.mpr (.inl hc))).1 hc
  · have hmem := h.mem_externalPositionModules.mpr hm.ne'
    exact (hreal c (h.mem_components.mpr (.inr (List.ne_nil_of_mem hmem)))).2 m hmem hm

end SetToken

end IndexProtocol
