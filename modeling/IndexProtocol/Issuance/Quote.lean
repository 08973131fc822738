import IndexProtocol.Issuance.Equity

/-! What the DebtIssuanceModuleV2 says an issuance will take.

The quote starts from what the SetToken holds of a component where the issuance
starts from the default unit; external units are the same in both. What is held
covers the default unit, so the quote is no less. -/
namespace IndexProtocol
open Evm PreciseUnitMath ModuleBase

/-! ### The same positions -/

section Same
variable {s t : SetToken} (h : s.SamePositions t)
include h

theorem SetToken.SamePositions.getDefaultPositionRealUnit (component : Address) :
    t.getDefaultPositionRealUnit component = s.getDefaultPositionRealUnit component := by
  rw [SetToken.getDefaultPositionRealUnit, SetToken.getDefaultPositionRealUnit,
    SetToken.convertVirtualToRealUnit, SetToken.convertVirtualToRealUnit, h.positionMultiplier,
    SetToken.defaultPositionVirtualUnit, SetToken.defaultPositionVirtualUnit, h.componentPositions]

theorem SetToken.SamePositions.getExternalPositionRealUnit (component module : Address) :
    t.getExternalPositionRealUnit component module =
      s.getExternalPositionRealUnit component module := by
  rw [SetToken.getExternalPositionRealUnit, SetToken.getExternalPositionRealUnit,
    SetToken.convertVirtualToRealUnit, SetToken.convertVirtualToRealUnit, h.positionMultiplier,
    SetToken.externalPositionVirtualUnit, SetToken.externalPositionVirtualUnit,
    h.componentPositions]

namespace DebtIssuanceModule

theorem getTotalIssuanceUnits_of_same : getTotalIssuanceUnits t = getTotalIssuanceUnits s := by
  funext component
  have hcumulate : cumulate t component = cumulate s component := by
    funext cumulative module
    rw [cumulate, cumulate, h.getExternalPositionRealUnit]
  rw [getTotalIssuanceUnits, getTotalIssuanceUnits, h.getDefaultPositionRealUnit, hcumulate,
    h.externalPositionModules]

/-- What is owed depends on the positions alone. -/
theorem calculateRequired_of_same (quantity : Nat) (isIssue : Bool) :
    calculateRequiredComponentIssuanceUnits t quantity isIssue =
      calculateRequiredComponentIssuanceUnits s quantity isIssue := by
  rw [calculateRequiredComponentIssuanceUnits, calculateRequiredComponentIssuanceUnits,
    getTotalIssuanceUnits_of_same h, h.components]

end DebtIssuanceModule

end Same

namespace DebtIssuanceModuleV2
open DebtIssuanceModule (calculateTotalFees calculateRequiredComponentIssuanceUnits requiredUnits
  cumulate getTotalIssuanceUnits Backed callModulePreIssueHooks)

variable {χ : Type} (module : Address)

/-! ### The quote -/

/-- `_getTotalIssuanceUnitsFromBalances`, of one component. -/
def getTotalIssuanceUnitsFromBalances (w : IssuanceWorld χ) (component : Address) :
    Result IssuanceUnits := do
  let unit ← Position.getDefaultPositionUnit w.setToken.totalSupply (w.balance component)
  let cumulativeEquity ← SafeCast.toInt256 unit
  let cumulative ← runs (cumulate w.setToken component) (cumulativeEquity, 0)
    (w.setToken.externalPositionModules component)
  let equity ← SafeCast.toUint256 cumulative.1
  let negated ← SignedSafeMath.mul cumulative.2 (-1)
  let debt ← SafeCast.toUint256 negated
  pure ⟨component, equity, debt⟩

def getRequiredComponentIssuanceUnits (w : IssuanceWorld χ) (quantity : Nat) :
    Result (List IssuanceUnits) := do
  let (totalQuantity, _, _) ←
    calculateTotalFees module w.setToken w.rest.issuanceSettings quantity true
  if w.setToken.totalSupply = 0 then
    calculateRequiredComponentIssuanceUnits w.setToken totalQuantity true
  else
    let units ← w.setToken.components.mapM (getTotalIssuanceUnitsFromBalances w)
    units.mapM (requiredUnits totalQuantity true)

/-! ### The quote against the issuance -/

/-- The quote asks for no less equity and promises the same debt. -/
structure Covers (quoted units : IssuanceUnits) : Prop where
  component : quoted.component = units.component
  equity : units.equity ≤ quoted.equity
  debt : quoted.debt = units.debt

variable {module} {s : SetToken} {component : Address} {w u v : IssuanceWorld χ}

/-- External units are added to whatever the sum starts from. -/
theorem cumulate_shift {modules : List Address} {a b d : Int} {x y : Int × Int}
    (hx : runs (cumulate s component) (a, d) modules = .ok x)
    (hy : runs (cumulate s component) (b, d) modules = .ok y) :
    y.1 - x.1 = b - a ∧ y.2 = x.2 := by
  induction modules generalizing a b d with
  | nil =>
    obtain rfl := Except.ok.inj hx
    obtain rfl := Except.ok.inj hy
    exact ⟨rfl, rfl⟩
  | cons m rest ih =>
    obtain ⟨x₁, hxstep, hx⟩ := (runs_cons_eq_ok _).mp hx
    obtain ⟨y₁, hystep, hy⟩ := (runs_cons_eq_ok _).mp hy
    simp only [cumulate, bind_eq_ok, SetToken.getExternalPositionRealUnit_eq_ok] at hxstep hystep
    obtain ⟨unit, ⟨_, rfl⟩, hxstep⟩ := hxstep
    obtain ⟨_, ⟨_, rfl⟩, hystep⟩ := hystep
    by_cases hpos : 0 < s.externalRealUnit component m
    · rw [if_pos hpos] at hxstep hystep
      simp only [bind_eq_ok, SignedSafeMath.add_eq_ok, pure_eq_ok] at hxstep hystep
      obtain ⟨_, ⟨_, rfl⟩, rfl⟩ := hxstep
      obtain ⟨_, ⟨_, rfl⟩, rfl⟩ := hystep
      obtain ⟨hequity, hdebt⟩ := ih hx hy
      exact ⟨by omega, hdebt⟩
    · rw [if_neg hpos] at hxstep hystep
      simp only [bind_eq_ok, SignedSafeMath.add_eq_ok, pure_eq_ok] at hxstep hystep
      obtain ⟨_, ⟨_, rfl⟩, rfl⟩ := hxstep
      obtain ⟨_, ⟨_, rfl⟩, rfl⟩ := hystep
      exact ih hx hy

/-- The unit of what is held is at least the default unit that it covers. -/
theorem unit_le_held {unit supply balance held : Nat} (hbacked : unit * supply ≤ balance * preciseUnit)
    (h : Position.getDefaultPositionUnit supply balance = .ok held) : unit ≤ held := by
  simp only [Position.getDefaultPositionUnit, preciseDiv, bind_eq_ok, SafeMath.mul_eq_ok,
    SafeMath.div_eq_ok] at h
  obtain ⟨_, ⟨_, rfl⟩, hpos, rfl⟩ := h
  exact (Nat.le_div_iff_mul_le hpos).mpr hbacked

/-- Before the quantity comes in: the units of one component. -/
theorem units_covered {held units : IssuanceUnits}
    (hbacked : DebtIssuanceModule.defaultEquity w.setToken component * w.setToken.totalSupply ≤
      w.balance component * preciseUnit)
    (hheld : getTotalIssuanceUnitsFromBalances w component = .ok held)
    (hunits : getTotalIssuanceUnits w.setToken component = .ok units) : Covers held units := by
  simp only [getTotalIssuanceUnitsFromBalances, bind_eq_ok, SafeCast.toInt256_eq_ok,
    SafeCast.toUint256_eq_ok, SignedSafeMath.mul_eq_ok, pure_eq_ok] at hheld
  obtain ⟨unit, hunit, _, ⟨_, rfl⟩, y, hy, equity, hequity, _, ⟨_, rfl⟩, debt, hdebt, rfl⟩ := hheld
  simp only [getTotalIssuanceUnits, bind_eq_ok, SetToken.getDefaultPositionRealUnit_eq_ok,
    SafeCast.toUint256_eq_ok, SignedSafeMath.mul_eq_ok, pure_eq_ok] at hunits
  obtain ⟨_, ⟨_, rfl⟩, x, hx, equity', hequity', _, ⟨_, rfl⟩, debt', hdebt', rfl⟩ := hunits
  obtain ⟨hshift, hsame⟩ := cumulate_shift hx hy
  have hle : DebtIssuanceModule.defaultEquity w.setToken component ≤ unit :=
    unit_le_held hbacked hunit
  have hdefault : w.setToken.defaultRealUnit component ≤
      DebtIssuanceModule.defaultEquity w.setToken component := Int.self_le_toNat _
  refine ⟨rfl, ?_, ?_⟩
  · dsimp only
    omega
  · dsimp only
    rw [hsame] at hdebt
    omega

/-- The quantity keeps the order of units. -/
theorem Covers.required {quantity : Nat} {held units quoted owed : IssuanceUnits}
    (h : Covers held units) (hquoted : requiredUnits quantity true held = .ok quoted)
    (howed : requiredUnits quantity true units = .ok owed) : Covers quoted owed := by
  obtain ⟨hcomponent, hequity, hdebt⟩ := DebtIssuanceModule.requiredUnits_eq_ok hquoted
  obtain ⟨hcomponent', hequity', hdebt'⟩ := DebtIssuanceModule.requiredUnits_eq_ok howed
  rw [if_pos rfl] at hequity hdebt hequity' hdebt'
  refine ⟨?_, ?_, ?_⟩
  · rw [hcomponent, hcomponent']
    exact h.component
  · rw [hequity, hequity']
    exact Rounding.ceil_mono preciseUnit_pos (Nat.mul_le_mul_right quantity h.equity)
  · rw [hdebt, hdebt', h.debt]

/-- Nothing changed that the units and the fees depend on. -/
structure UnitsKept (w v : IssuanceWorld χ) : Prop where
  positions : w.setToken.SamePositions v.setToken
  controller : v.setToken.controller = w.setToken.controller
  issuanceSettings : v.rest.issuanceSettings = w.rest.issuanceSettings

/-- Modules whose calls before an issuance change no units. -/
def KeepsUnits (hooks : Address → ModuleIssuanceHook χ) : Prop :=
  ∀ m caller w quantity v, (hooks m).moduleIssueHook caller w quantity = .ok v → UnitsKept w v

theorem KeepsUnits.callModulePreIssueHooks {hooks : Address → ModuleIssuanceHook χ}
    (hkeep : KeepsUnits hooks) {quantity : Nat}
    (h : callModulePreIssueHooks module hooks w quantity = .ok u) : UnitsKept w u := by
  refine runs_invariant (UnitsKept w) (fun a m b ha hb => ?_) ⟨.refl _, rfl, rfl⟩ h
  have hstep := hkeep m module a quantity b hb
  exact ⟨ha.positions.trans hstep.positions, hstep.controller.trans ha.controller,
    hstep.issuanceSettings.trans ha.issuanceSettings⟩

theorem UnitsKept.calculateTotalFees {quantity : Nat} {isIssue : Bool} (h : UnitsKept w u) :
    calculateTotalFees module u.setToken u.rest.issuanceSettings quantity isIssue =
      calculateTotalFees module w.setToken w.rest.issuanceSettings quantity isIssue := by
  rw [DebtIssuanceModule.calculateTotalFees, DebtIssuanceModule.calculateTotalFees, h.controller,
    h.issuanceSettings]

/-- Component by component, what is quoted covers what is owed. -/
theorem quoted_covers {quantity total managerFee protocolFee : Nat} {quoted units : List IssuanceUnits}
    (hsupply : 0 < w.setToken.totalSupply) (hbacked : Backed w)
    (hquoted : getRequiredComponentIssuanceUnits module w quantity = .ok quoted)
    (hfees : calculateTotalFees module w.setToken w.rest.issuanceSettings quantity true =
      .ok (total, managerFee, protocolFee))
    (hunits : calculateRequiredComponentIssuanceUnits w.setToken total true = .ok units) :
    List.Forall₂ Covers quoted units := by
  rw [getRequiredComponentIssuanceUnits, hfees, ok_bind] at hquoted
  dsimp only at hquoted
  rw [if_neg hsupply.ne'] at hquoted
  simp only [bind_eq_ok, mapM_eq_ok] at hquoted
  simp only [calculateRequiredComponentIssuanceUnits, bind_eq_ok, mapM_eq_ok] at hunits
  obtain ⟨helds, hhelds, hquoted⟩ := hquoted
  obtain ⟨totals, htotals, hunits⟩ := hunits
  unfold Backed at hbacked
  generalize w.setToken.components = components at hhelds htotals hbacked
  induction hhelds generalizing totals quoted units with
  | nil =>
    obtain rfl := List.forall₂_nil_left_iff.mp htotals
    obtain rfl := List.forall₂_nil_left_iff.mp hunits
    obtain rfl := List.forall₂_nil_left_iff.mp hquoted
    exact .nil
  | cons hheld _ ih =>
    obtain ⟨total, totals, htotal, htotalsRest, rfl⟩ := List.forall₂_cons_left_iff.mp htotals
    obtain ⟨owed, units, howed, hunitsRest, rfl⟩ := List.forall₂_cons_left_iff.mp hunits
    obtain ⟨q, quoted, hq, hquotedRest, rfl⟩ := List.forall₂_cons_left_iff.mp hquoted
    have hcovers := units_covered (hbacked _ List.mem_cons_self) hheld htotal
    exact .cons (hcovers.required hq howed) (ih hquotedRest totals hunitsRest htotalsRest
      fun c hc => hbacked c (List.mem_cons_of_mem _ hc))

end DebtIssuanceModuleV2

/-- When a token lets an amount be taken. -/
theorem Erc20.transferFrom_returns_iff {t : Erc20} {caller sender recipient : Address}
    {amount : Nat} :
    (∃ t', t.transferFrom caller sender recipient amount = .ok t') ↔
      sender ≠ 0 ∧ recipient ≠ 0 ∧ amount ≤ t.balances sender ∧
        Function.update t.balances sender (t.balances sender - amount) recipient + amount <
          uintBound ∧ amount ≤ t.allowances sender caller ∧ caller ≠ 0 := by
  simp only [Erc20.transferFrom, Erc20.transferInternal, Erc20.approveInternal, bind_eq_ok,
    require_eq_ok, SafeMath.subOr_eq_ok, SafeMath.add_eq_ok, pure_eq_ok]
  constructor
  · rintro ⟨_, _, ⟨_, hsender, _, hrecipient, _, ⟨hbalance, rfl⟩, _, ⟨hbound, rfl⟩, rfl⟩, _,
      ⟨hallowance, rfl⟩, _, _, _, hcaller, rfl⟩
    exact ⟨hsender, hrecipient, hbalance, hbound, hallowance, hcaller⟩
  · rintro ⟨hsender, hrecipient, hbalance, hbound, hallowance, hcaller⟩
    exact ⟨_, _, ⟨(), hsender, (), hrecipient, _, ⟨hbalance, rfl⟩, _, ⟨hbound, rfl⟩, rfl⟩, _,
      ⟨hallowance, rfl⟩, (), hsender, (), hcaller, rfl⟩

/-- It then lets less be taken. -/
theorem Erc20.transferFrom_of_le {t : Erc20} {caller sender recipient : Address} {a b : Nat}
    (hle : a ≤ b) (h : ∃ t', t.transferFrom caller sender recipient b = .ok t') :
    ∃ t', t.transferFrom caller sender recipient a = .ok t' := by
  rw [Erc20.transferFrom_returns_iff] at h ⊢
  obtain ⟨hsender, hrecipient, hbalance, hbound, hallowance, hcaller⟩ := h
  refine ⟨hsender, hrecipient, hle.trans hbalance, ?_, hle.trans hallowance, hcaller⟩
  by_cases hsame : recipient = sender
  · rw [hsame, Function.update_self] at hbound ⊢
    omega
  · rw [Function.update_of_ne hsame] at hbound ⊢
    omega

namespace DebtIssuanceModuleV2
open DebtIssuanceModule (calculateTotalFees calculateRequiredComponentIssuanceUnits Backed
  callModulePreIssueHooks)

variable {χ : Type} {module : Address} {hooks : Address → ModuleIssuanceHook χ}
  {managerHooks : Address → PreIssueHook (IssuanceState χ)} {w v : IssuanceWorld χ}
  {sender recipient : Address} {quantity : Nat} {quoted : List IssuanceUnits}

theorem exampleHooks_keepsUnits : KeepsUnits IssuanceVersion.exampleHooks := by
  intro m caller w quantity v h
  have hpure : (pure w : Result (IssuanceWorld Unit)) = .ok v := h
  obtain rfl : w = v := by simpa using hpure
  exact ⟨.refl _, rfl, rfl⟩

def exampleIssued : Result (IssuanceWorld Unit) := do
  let w ← IssuanceVersion.exampleWorld (3 * 10 ^ 17)
  issue 10 IssuanceVersion.exampleHooks (fun _ _ _ _ _ => pure ()) w 5 1000 5

end DebtIssuanceModuleV2

end IndexProtocol
