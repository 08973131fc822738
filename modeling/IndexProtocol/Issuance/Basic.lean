import IndexProtocol.ModuleBase
import IndexProtocol.Pool

/-! The BasicIssuanceModule: issue and redeem for default positions.

Issuing collects the units of the quantity rounded up, redeeming pays them out
rounded down. The manager's pre-issue hook is another contract; as far as this
module goes it may stop the issuance. -/
namespace IndexProtocol
open Evm PreciseUnitMath ModuleBase

/-- A pre-issue hook, called with the quantity, the caller and the recipient. -/
abbrev PreIssueHook (χ : Type) := World χ → Nat → Address → Address → Result Unit

namespace BasicIssuanceModule
variable {χ : Type} (module : Address)

/-- What one component adds to the required units. -/
def requiredComponentUnit (s : SetToken) (quantity : Nat) (component : Address) : Result Nat := do
  require (Position.hasExternalPosition s component = false) "Only default positions are supported"
  let unit ← s.getDefaultPositionRealUnit component
  let unit ← SafeCast.toUint256 unit
  preciseMulCeil unit quantity

def getRequiredComponentUnitsForIssue (s : SetToken) (quantity : Nat) :
    Result (List Address × List Nat) := do
  validateOnlyValidAndInitializedSet s module
  let notionalUnits ← s.components.mapM (requiredComponentUnit s quantity)
  pure (s.components, notionalUnits)

def callPreIssueHooks (hooks : Address → PreIssueHook χ) (managerIssuanceHook : Address)
    (w : World χ) (quantity : Nat) (caller recipient : Address) : Result Unit :=
  if managerIssuanceHook ≠ 0 then hooks managerIssuanceHook w quantity caller recipient
  else pure ()

def issue (hooks : Address → PreIssueHook χ) (managerIssuanceHook : Address) (w : World χ)
    (sender : Address) (quantity : Nat) (recipient : Address) : Result (World χ) := do
  validateOnlyValidAndInitializedSet w.setToken module
  require (0 < quantity) "Issue quantity must be > 0"
  callPreIssueHooks hooks managerIssuanceHook w quantity sender recipient
  let (components, componentQuantities) ←
    getRequiredComponentUnitsForIssue module w.setToken quantity
  let w ← runs (fun w (component, componentQuantity) =>
      ExplicitERC20.transferFrom w module component sender w.setToken.self componentQuantity)
    w (components.zip componentQuantities)
  w.callSetToken (·.mint module recipient quantity)

/-- What redemption pays out of one component. -/
def redeemComponent (quantity : Nat) (recipient : Address) (w : World χ) (component : Address) :
    Result (World χ) := do
  require (Position.hasExternalPosition w.setToken component = false)
    "Only default positions are supported"
  let unit ← w.setToken.getDefaultPositionRealUnit component
  let unit ← SafeCast.toUint256 unit
  -- Rounded down, so that small quantities do not take more than their share.
  let componentQuantity ← preciseMul quantity unit
  Invoke.strictInvokeTransfer w module component recipient componentQuantity

def redeem (w : World χ) (sender : Address) (quantity : Nat) (recipient : Address) :
    Result (World χ) := do
  validateOnlyValidAndInitializedSet w.setToken module
  require (0 < quantity) "Redeem quantity must be > 0"
  let w ← w.callSetToken (·.burn module sender quantity)
  runs (redeemComponent module quantity recipient) w w.setToken.components

/-- The module's `initialize`. Returns the SetToken and the hook to store. -/
def initializeSet (s : SetToken) (sender preIssueHook : Address) : Result (SetToken × Address) := do
  validateOnlySetManager s sender
  validateOnlyValidAndPendingSet s module
  let s ← s.initializeModule module
  pure (s, preIssueHook)

/-- Users should always have a way to redeem. -/
def removeModule : Result Unit := revert "The BasicIssuanceModule module cannot be removed"

/-! ### What issue and redeem do to balances and supply -/

variable {module} {w v : World χ} {sender recipient : Address} {quantity : Nat}

theorem requiredComponentUnit_eq_ok {s : SetToken} {component : Address} {units : Nat}
    (h : requiredComponentUnit s quantity component = .ok units) :
    ∃ unit : Nat, s.defaultRealUnit component = unit ∧ unit * quantity ⌈/⌉ preciseUnit = units := by
  simp only [requiredComponentUnit, bind_eq_ok, require_eq_ok,
    SetToken.getDefaultPositionRealUnit_eq_ok, SafeCast.toUint256_eq_ok,
    preciseMulCeil_eq_ok] at h
  obtain ⟨_, _, _, ⟨_, rfl⟩, unit, hunit, _, hceil⟩ := h
  exact ⟨unit, hunit, hceil⟩

/-- Issuing pulls every component's units, rounded up, and mints the quantity. -/
theorem issue_eq {hooks : Address → PreIssueHook χ} {hook : Address}
    (hnodup : w.setToken.components.Nodup)
    (h : issue module hooks hook w sender quantity recipient = .ok v) :
    w.setToken.mint module recipient quantity = .ok v.setToken ∧ v.rest = w.rest ∧
      (∀ component ∈ w.setToken.components, ∃ unit : Nat,
        w.setToken.defaultRealUnit component = unit ∧
          v.balance component = w.balance component + unit * quantity ⌈/⌉ preciseUnit) ∧
      ∀ component ∉ w.setToken.components, v.balance component = w.balance component := by
  simp only [issue, getRequiredComponentUnitsForIssue, bind_eq_ok, pure_eq_ok, mapM_eq_ok] at h
  obtain ⟨_, _, _, _, _, _, _, ⟨_, _, units, hunits, rfl⟩, w₁, hloop, hcall⟩ := h
  obtain ⟨s, hmint, rfl⟩ := World.callSetToken_eq_ok.mp hcall
  obtain ⟨hlength, hunit⟩ := List.forall₂_iff_zip.mp hunits
  have hfst : (w.setToken.components.zip units).map Prod.fst = w.setToken.components :=
    List.map_fst_zip hlength.le
  obtain ⟨⟨hset, hrest⟩, hin, hout⟩ := runs_once Prod.fst (@World.balance χ)
    (fun x => x.setToken = w.setToken ∧ x.rest = w.rest) (fun a b b' => b' = b + a.2)
    (fun x a y h hstep => by
      obtain ⟨hset, hrest⟩ := h
      obtain ⟨hsame, hbalance⟩ := World.transferFrom_balance hstep
      exact ⟨⟨hsame.setToken.trans hset, hsame.rest.trans hrest⟩, hbalance,
        fun other hne => hsame.balance_of_ne hne⟩)
    (hfst.symm ▸ hnodup) ⟨rfl, rfl⟩ hloop
  have hself := (SetToken.mint_same hmint).self
  have hbalance (component : Address) :
      (World.mk s w₁.tokens w₁.rest).balance component = w₁.balance component := by
    simp only [World.balance, hself]
  refine ⟨hset ▸ hmint, hrest, fun component hc => ?_, fun component hc => ?_⟩
  · rw [← hfst] at hc
    obtain ⟨⟨_, u⟩, hmem, rfl⟩ := List.mem_map.mp hc
    obtain ⟨unit, hreal, hceil⟩ := requiredComponentUnit_eq_ok (hunit hmem)
    refine ⟨unit, hreal, ?_⟩
    rw [hbalance, hceil]
    exact hin _ hmem
  · rw [hbalance]
    exact hout component (hfst.symm ▸ hc)

theorem redeemComponent_eq {component : Address}
    (h : redeemComponent module quantity recipient w component = .ok v) :
    w.SameBut v component ∧ ∃ unit : Nat, w.setToken.defaultRealUnit component = unit ∧
      v.balance component + unit * quantity / preciseUnit = w.balance component := by
  simp only [redeemComponent, bind_eq_ok, require_eq_ok, exists_const,
    SetToken.getDefaultPositionRealUnit_eq_ok, SafeCast.toUint256_eq_ok, preciseMul_eq_ok] at h
  obtain ⟨_, _, ⟨_, rfl⟩, unit, hunit, _, ⟨_, rfl⟩, htransfer⟩ := h
  obtain ⟨hsame, _, hbalance⟩ := World.strictInvokeTransfer_balance htransfer
  exact ⟨hsame, unit, hunit, Nat.mul_comm unit quantity ▸ hbalance⟩

/-- Redeeming burns the quantity and pays out every component's units, rounded down. -/
theorem redeem_eq (hnodup : w.setToken.components.Nodup)
    (h : redeem module w sender quantity recipient = .ok v) :
    w.setToken.burn module sender quantity = .ok v.setToken ∧ v.rest = w.rest ∧
      (∀ component ∈ w.setToken.components, ∃ unit : Nat,
        w.setToken.defaultRealUnit component = unit ∧
          v.balance component + unit * quantity / preciseUnit = w.balance component) ∧
      ∀ component ∉ w.setToken.components, v.balance component = w.balance component := by
  simp only [redeem, bind_eq_ok] at h
  obtain ⟨_, _, _, _, w₁, hcall, hloop⟩ := h
  obtain ⟨s, hburn, rfl⟩ := World.callSetToken_eq_ok.mp hcall
  have hsame := SetToken.burn_same hburn
  have hbalance (component : Address) :
      (World.mk s w.tokens w.rest).balance component = w.balance component := by
    simp only [World.balance, hsame.self]
  have hkeys : (s.components.map id).Nodup := by
    rw [List.map_id, hsame.components]
    exact hnodup
  obtain ⟨⟨hset, hrest⟩, hin, hout⟩ := runs_once (s := ⟨s, w.tokens, w.rest⟩) id
    (@World.balance χ) (fun x => x.setToken = s ∧ x.rest = w.rest)
    (fun component b b' => ∃ unit : Nat, w.setToken.defaultRealUnit component = unit ∧
      b' + unit * quantity / preciseUnit = b)
    (fun x a y h hstep => by
      obtain ⟨hset, hrest⟩ := h
      obtain ⟨hsame', unit, hunit, hpaid⟩ := redeemComponent_eq hstep
      rw [hset, hsame.defaultRealUnit] at hunit
      exact ⟨⟨hsame'.setToken.trans hset, hsame'.rest.trans hrest⟩, ⟨unit, hunit, hpaid⟩,
        fun other hne => hsame'.balance_of_ne hne⟩)
    hkeys ⟨rfl, rfl⟩ hloop
  rw [List.map_id, hsame.components] at hout
  rw [hsame.components] at hin
  refine ⟨hset ▸ hburn, hrest, fun component hc => ?_, fun component hc => ?_⟩
  · rw [← hbalance component]
    exact hin component hc
  · rw [← hbalance component]
    exact hout component hc

end BasicIssuanceModule

end IndexProtocol
