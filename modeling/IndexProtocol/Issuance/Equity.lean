import IndexProtocol.Issuance.Fees
import Mathlib.Algebra.BigOperators.Ring.List

/-! Default positions next to external ones.

The equity of a component is one sum over its default and external units, and is
collected or paid out rounded once; each module that holds a part of it moves its
own part, rounded by itself, and the rounding left over falls to the default
position. Issuing leaves it to the good. Redeeming pays out a wei more than the
parts wherever their remainders carry over, and takes it from what backs the
default position. -/
namespace IndexProtocol
open Evm PreciseUnitMath ModuleBase

namespace DebtIssuanceModule
variable {χ : Type} {s : SetToken} {component : Address}

/-- The default unit of a component as a number. -/
def defaultEquity (s : SetToken) (component : Address) : Nat := (s.defaultRealUnit component).toNat

/-- The external unit of a component in a module as a number. -/
def externalEquity (s : SetToken) (component module : Address) : Nat :=
  (s.externalRealUnit component module).toNat

def externalEquities (s : SetToken) (component : Address) : List Nat :=
  (s.externalPositionModules component).map (externalEquity s component)

/-- What the modules move of a component for the quantity, each part rounded down. -/
def movedByHooks (s : SetToken) (component : Address) (quantity : Nat) : Nat :=
  ((externalEquities s component).map (· * quantity / preciseUnit)).sum

/-- What the remainders of all parts add up to, in whole units. -/
def carry (s : SetToken) (component : Address) (quantity : Nat) : Nat :=
  (((defaultEquity s component :: externalEquities s component).map
    (· * quantity % preciseUnit)).sum) / preciseUnit

/-- The balance of every component pays its default unit for every share. -/
def Backed (w : IssuanceWorld χ) : Prop :=
  ∀ component ∈ w.setToken.components,
    defaultEquity w.setToken component * w.setToken.totalSupply ≤ w.balance component * preciseUnit

section Same
variable {t : SetToken} (h : s.SamePositions t)
include h

theorem defaultEquity_of_same : defaultEquity t = defaultEquity s := by
  funext component
  rw [defaultEquity, defaultEquity, h.defaultRealUnit]

theorem externalEquities_of_same : externalEquities t = externalEquities s := by
  funext component
  rw [externalEquities, externalEquities, h.externalPositionModules]
  refine List.map_congr_left fun m _ => ?_
  rw [externalEquity, externalEquity, h.externalRealUnit]

/-- What a quantity moves and carries over depends on the positions alone. -/
theorem movedByHooks_of_same (component : Address) (quantity : Nat) :
    movedByHooks t component quantity = movedByHooks s component quantity := by
  rw [movedByHooks, movedByHooks, externalEquities_of_same h]

end Same

/-! ### Units -/

theorem cumulate_positive {modules : List Address} {total : Int} {result : Int × Int}
    (hpos : ∀ m ∈ modules, 0 < s.externalRealUnit component m)
    (h : runs (cumulate s component) (total, 0) modules = .ok result) :
    result = (total + (modules.map (externalEquity s component)).sum, 0) := by
  induction modules generalizing total with
  | nil =>
    obtain rfl := Except.ok.inj h
    simp
  | cons m rest ih =>
    obtain ⟨next, hstep, hrest⟩ := (runs_cons_eq_ok _).mp h
    have hm := hpos m List.mem_cons_self
    simp only [cumulate, bind_eq_ok, SetToken.getExternalPositionRealUnit_eq_ok] at hstep
    obtain ⟨_, ⟨_, rfl⟩, hstep⟩ := hstep
    rw [if_pos hm] at hstep
    simp only [bind_eq_ok, SignedSafeMath.add_eq_ok, pure_eq_ok] at hstep
    obtain ⟨_, ⟨_, rfl⟩, rfl⟩ := hstep
    rw [ih (fun m' hm' => hpos m' (List.mem_cons_of_mem m hm')) hrest]
    have hunit : (externalEquity s component m : Int) = s.externalRealUnit component m :=
      Int.toNat_of_nonneg hm.le
    simp only [List.map_cons, List.sum_cons, Nat.cast_add, Prod.mk.injEq, and_true]
    omega

/-- Where all external units are above zero, the equity is the sum of all units. -/
theorem totalIssuanceUnits_positive (hwf : s.WellFormed)
    (hpos : ∀ m ∈ s.externalPositionModules component, 0 < s.externalRealUnit component m)
    {units : IssuanceUnits} (h : getTotalIssuanceUnits s component = .ok units) :
    units = ⟨component, defaultEquity s component + (externalEquities s component).sum, 0⟩ := by
  simp only [getTotalIssuanceUnits, bind_eq_ok, SetToken.getDefaultPositionRealUnit_eq_ok,
    SafeCast.toUint256_eq_ok, SignedSafeMath.mul_eq_ok, pure_eq_ok] at h
  obtain ⟨_, ⟨_, rfl⟩, cumulative, hcumulative, equity, hequity, _, ⟨_, rfl⟩, debt, hdebt, rfl⟩ := h
  obtain rfl := cumulate_positive hpos hcumulative
  have hdefault : (defaultEquity s component : Int) = s.defaultRealUnit component :=
    Int.toNat_of_nonneg hwf.defaultRealUnit_nonneg
  have hequity' : ((defaultEquity s component + (externalEquities s component).sum : Nat) : Int) =
      equity := by
    rw [← hequity, Nat.cast_add, hdefault]
    rfl
  simp only [IssuanceUnits.mk.injEq, true_and]
  omega

/-- The parts of the equity for a quantity. -/
theorem sum_parts (s : SetToken) (component : Address) (quantity : Nat) :
    (defaultEquity s component + (externalEquities s component).sum) * quantity =
      ((defaultEquity s component :: externalEquities s component).map (· * quantity)).sum := by
  rw [← List.sum_cons, List.sum_map_mul_right, List.map_id']

/-- Rounded down once, the equity is its rounded parts and the carry. -/
theorem equity_floor (s : SetToken) (component : Address) (quantity : Nat) :
    (defaultEquity s component + (externalEquities s component).sum) * quantity / preciseUnit =
      defaultEquity s component * quantity / preciseUnit + movedByHooks s component quantity +
        carry s component quantity := by
  rw [sum_parts, Rounding.sum_floor _ preciseUnit_pos]
  simp only [List.map_map, List.map_cons, List.sum_cons, movedByHooks, carry]
  rfl

/-- Rounded up once, the equity pays the default part and all that the modules move. -/
theorem equity_ceil (s : SetToken) (component : Address) (quantity : Nat) :
    defaultEquity s component * quantity + movedByHooks s component quantity * preciseUnit ≤
      (defaultEquity s component + (externalEquities s component).sum) * quantity ⌈/⌉ preciseUnit *
        preciseUnit := by
  refine le_trans ?_ (Rounding.le_ceil_mul _ preciseUnit_pos)
  rw [sum_parts, List.map_cons, List.sum_cons]
  refine Nat.add_le_add_left ?_ _
  have hparts := Rounding.sum_floor_mul_le ((externalEquities s component).map (· * quantity))
    preciseUnit
  rwa [List.map_map] at hparts

/-! ### Hooks that move exactly their part -/

section Moves
variable {module : Address} {hooks : Address → ModuleIssuanceHook χ} {w v u : IssuanceWorld χ}

/-- Nothing changed but what the SetToken holds of the component. -/
structure Alone (component : Address) (w v : IssuanceWorld χ) : Prop where
  setToken : v.setToken = w.setToken
  balance : ∀ t, t ≠ component → v.balance t = w.balance t

theorem Alone.refl (component : Address) (w : IssuanceWorld χ) : Alone component w w :=
  ⟨rfl, fun _ _ => rfl⟩

theorem Alone.trans (h : Alone component w v) (h' : Alone component v u) : Alone component w u :=
  ⟨h'.setToken.trans h.setToken, fun t ht => (h'.balance t ht).trans (h.balance t ht)⟩

theorem Alone.of_sameBut (h : w.SameBut v component) : Alone component w v :=
  ⟨h.setToken, fun _ => h.balance_of_ne⟩

/-- The hooks of the modules with a position in a component move the product of the external unit
and the quantity, in or out, and nothing else. -/
structure MovesExactly (hooks : Address → ModuleIssuanceHook χ) (s : SetToken) : Prop where
  issue : ∀ component, ∀ m ∈ s.externalPositionModules component, ∀ caller w quantity v,
    s.SamePositions w.setToken →
    (hooks m).componentIssueHook caller w quantity component true = .ok v →
      Alone component w v ∧
        v.balance component + externalEquity s component m * quantity / preciseUnit =
          w.balance component
  redeem : ∀ component, ∀ m ∈ s.externalPositionModules component, ∀ caller w quantity v,
    s.SamePositions w.setToken →
    (hooks m).componentRedeemHook caller w quantity component true = .ok v →
      Alone component w v ∧
        v.balance component =
          w.balance component + externalEquity s component m * quantity / preciseUnit

/-- A loop over modules of which each moves its own amounts of the component. -/
theorem runs_moves {step : IssuanceWorld χ → Address → Result (IssuanceWorld χ)}
    {modules : List Address} (out back : Address → Nat)
    (hstep : ∀ u, ∀ m ∈ modules, ∀ t, u.setToken = w.setToken → step u m = .ok t →
      Alone component u t ∧ t.balance component + out m = u.balance component + back m)
    (h : runs step w modules = .ok v) :
    Alone component w v ∧
      v.balance component + (modules.map out).sum = w.balance component + (modules.map back).sum := by
  suffices hall : ∀ (rest : List Address) (u : IssuanceWorld χ), (∀ m ∈ rest, m ∈ modules) →
      u.setToken = w.setToken → runs step u rest = .ok v → Alone component u v ∧
        v.balance component + (rest.map out).sum = u.balance component + (rest.map back).sum from
    hall modules w (fun _ hm => hm) rfl h
  intro rest
  induction rest with
  | nil =>
    intro u _ _ hrun
    obtain rfl : u = v := by simpa using hrun
    exact ⟨.refl component u, rfl⟩
  | cons m rest ih =>
    intro u hmem hu hrun
    obtain ⟨t, ht, hrun⟩ := (runs_cons_eq_ok step).mp hrun
    obtain ⟨halone, hbalance⟩ := hstep u m (hmem m List.mem_cons_self) t hu ht
    obtain ⟨halone', hbalance'⟩ := ih t (fun m' hm' => hmem m' (List.mem_cons_of_mem m hm'))
      (halone.setToken.trans hu) hrun
    refine ⟨halone.trans halone', ?_⟩
    simp only [List.map_cons, List.sum_cons]
    omega

theorem movedByHooks_eq (s : SetToken) (component : Address) (quantity : Nat) :
    movedByHooks s component quantity = ((s.externalPositionModules component).map fun m =>
      externalEquity s component m * quantity / preciseUnit).sum := by
  rw [movedByHooks, externalEquities, List.map_map]
  rfl

variable (hmoves : MovesExactly hooks s) (hsame : s.SamePositions w.setToken) {quantity : Nat}
include hmoves hsame

theorem MovesExactly.hooks_redeem
    (h : executeExternalPositionHooks module hooks w quantity component false true = .ok v) :
    Alone component w v ∧
      v.balance component = w.balance component + movedByHooks s component quantity := by
  rw [executeExternalPositionHooks, hsame.externalPositionModules] at h
  obtain ⟨halone, hbalance⟩ := runs_moves (fun _ => 0)
    (fun m => externalEquity s component m * quantity / preciseUnit) (fun u m hm t hu ht =>
      hmoves.redeem component m hm module u quantity t (hu ▸ hsame) ht) h
  rw [movedByHooks_eq, ← hbalance]
  simpa using halone

theorem MovesExactly.hooks_issue
    (h : executeExternalPositionHooks module hooks w quantity component true true = .ok v) :
    Alone component w v ∧
      v.balance component + movedByHooks s component quantity = w.balance component := by
  rw [executeExternalPositionHooks, hsame.externalPositionModules] at h
  obtain ⟨halone, hbalance⟩ := runs_moves
    (fun m => externalEquity s component m * quantity / preciseUnit) (fun _ => 0)
    (fun u m hm t hu ht => hmoves.issue component m hm module u quantity t (hu ▸ hsame) ht) h
  rw [movedByHooks_eq, hbalance]
  simpa using halone

/-- Redeemed equity: withdrawn part by part, paid out at once. -/
theorem MovesExactly.resolveEquity_redeem {sender recipient : Address} {units : IssuanceUnits}
    (hzero : units.equity = 0 → movedByHooks s units.component quantity = 0)
    (h : resolveEquityPosition module hooks sender recipient quantity false w units = .ok v) :
    Alone units.component w v ∧ v.balance units.component + units.equity =
      w.balance units.component + movedByHooks s units.component quantity := by
  simp only [resolveEquityPosition, Bool.false_eq_true, if_false] at h
  split_ifs at h with hequity
  · simp only [bind_eq_ok] at h
    obtain ⟨u, hhooks, htransfer⟩ := h
    obtain ⟨hsameBut, _, hbalance⟩ := World.strictInvokeTransfer_balance htransfer
    obtain ⟨halone, hwithdrawn⟩ := hmoves.hooks_redeem hsame hhooks
    exact ⟨halone.trans (.of_sameBut hsameBut), by omega⟩
  · obtain rfl : w = v := by simpa using h
    have hnone : units.equity = 0 := by omega
    exact ⟨.refl _ w, by rw [hzero hnone, hnone]⟩

/-- Issued equity: collected at once, deposited part by part. -/
theorem MovesExactly.resolveEquity_issue {sender recipient : Address} {units : IssuanceUnits}
    (hzero : units.equity = 0 → movedByHooks s units.component quantity = 0)
    (h : resolveEquityPosition module hooks sender recipient quantity true w units = .ok v) :
    Alone units.component w v ∧
      v.balance units.component + movedByHooks s units.component quantity =
        w.balance units.component + units.equity := by
  simp only [resolveEquityPosition, if_true] at h
  split_ifs at h with hequity
  · simp only [bind_eq_ok] at h
    obtain ⟨u, htransfer, hhooks⟩ := h
    obtain ⟨hsameBut, hbalance⟩ := World.transferFrom_balance htransfer
    obtain ⟨halone, hdeposited⟩ := hmoves.hooks_issue (hsameBut.setToken ▸ hsame) hhooks
    exact ⟨(Alone.of_sameBut hsameBut).trans halone, by omega⟩
  · obtain rfl : w = v := by simpa using h
    have hnone : units.equity = 0 := by omega
    exact ⟨.refl _ w, by rw [hzero hnone, hnone]⟩

end Moves

/-! ### Issue and redeem -/

section Resolution
variable {module : Address} {hooks : Address → ModuleIssuanceHook χ} {w v : IssuanceWorld χ}
  {quantity : Nat} {isIssue : Bool}

/-- All external units are above zero. -/
def AllEquity (s : SetToken) : Prop :=
  ∀ component, ∀ m ∈ s.externalPositionModules component, 0 < s.externalRealUnit component m

theorem AllEquity.of_same {t : SetToken} (h : AllEquity s) (hsame : s.SamePositions t) :
    AllEquity t := by
  intro c m hm
  rw [hsame.externalPositionModules] at hm
  rw [hsame.externalRealUnit]
  exact h c m hm

/-- What is owed of each component: its equity rounded once, and no debt. -/
theorem required_equity (hwf : s.WellFormed) (hequity : AllEquity s) {units : List IssuanceUnits}
    (h : calculateRequiredComponentIssuanceUnits s quantity isIssue = .ok units) :
    units.map IssuanceUnits.component = s.components ∧ ∀ a ∈ units, a.debt = 0 ∧
      a.equity =
        if isIssue then (defaultEquity s a.component + (externalEquities s a.component).sum) *
          quantity ⌈/⌉ preciseUnit
        else (defaultEquity s a.component + (externalEquities s a.component).sum) *
          quantity / preciseUnit := by
  obtain ⟨hmap, hmem⟩ := required_eq_ok h
  refine ⟨hmap, fun a ha => ?_⟩
  obtain ⟨total, htotal, hrequired⟩ := hmem a ha
  obtain rfl := totalIssuanceUnits_positive hwf (hequity a.component) htotal
  obtain ⟨_, hequity, hdebt⟩ := requiredUnits_eq_ok hrequired
  refine ⟨?_, hequity⟩
  rw [hdebt, Nat.zero_mul, Nat.zero_div, zero_ceilDiv, ite_self]

/-- Equity of nothing has parts of nothing. -/
theorem movedByHooks_of_no_equity {equity : Nat}
    (h : equity = if isIssue then (defaultEquity s component + (externalEquities s component).sum) *
        quantity ⌈/⌉ preciseUnit
      else (defaultEquity s component + (externalEquities s component).sum) * quantity / preciseUnit)
    (hzero : equity = 0) : movedByHooks s component quantity = 0 := by
  have hfloor := equity_floor s component quantity
  have hle := Rounding.floor_le_ceil
    ((defaultEquity s component + (externalEquities s component).sum) * quantity) preciseUnit_pos
  have hnone : (defaultEquity s component + (externalEquities s component).sum) * quantity /
      preciseUnit = 0 := by
    cases isIssue with
    | false =>
      rw [if_neg Bool.false_ne_true] at h
      rw [← h, hzero]
    | true =>
      rw [if_pos rfl] at h
      rw [← h, hzero] at hle
      exact Nat.le_zero.mp hle
  rw [hnone, eq_comm, Nat.add_eq_zero_iff, Nat.add_eq_zero_iff] at hfloor
  exact hfloor.1.2

/-- No debt, nothing to do. -/
theorem resolveDebts_none {sender : Address} {units : List IssuanceUnits}
    (hdebt : ∀ a ∈ units, a.debt = 0)
    (h : resolveDebtPositions module hooks w sender quantity isIssue units = .ok v) : v = w := by
  refine (runs_induction (fun u rest => u = w ∧ ∀ a ∈ rest, a.debt = 0) ?_ ⟨rfl, hdebt⟩ h).1
  rintro u a rest t ⟨hu, hrest⟩ ht
  rw [resolveDebtPosition, hrest a List.mem_cons_self, if_neg (lt_irrefl 0), pure_eq_ok] at ht
  exact ⟨ht.symm.trans hu, fun b hb => hrest b (List.mem_cons_of_mem a hb)⟩

/-- Resolving the equity of all components changes each balance by what its own resolution does. -/
theorem resolveEquities_balance {sender recipient : Address} {units : List IssuanceUnits}
    (out back : IssuanceUnits → Nat) (hnodup : (units.map IssuanceUnits.component).Nodup)
    (hwf : w.setToken.WellFormed) (hequity : AllEquity w.setToken)
    (hunits : calculateRequiredComponentIssuanceUnits w.setToken quantity isIssue = .ok units)
    (hstep : ∀ u a t, u.setToken = w.setToken →
      (a.equity = 0 → movedByHooks w.setToken a.component quantity = 0) →
      resolveEquityPosition module hooks sender recipient quantity isIssue u a = .ok t →
        Alone a.component u t ∧ t.balance a.component + out a = u.balance a.component + back a)
    (h : resolveEquityPositions module hooks w sender recipient quantity isIssue units = .ok v) :
    v.setToken = w.setToken ∧
      ∀ a ∈ units, v.balance a.component + out a = w.balance a.component + back a := by
  have hamounts := (required_equity hwf hequity hunits).2
  suffices hall : ∀ (rest : List IssuanceUnits) (u : IssuanceWorld χ), (∀ a ∈ rest, a ∈ units) →
      (rest.map IssuanceUnits.component).Nodup → u.setToken = w.setToken →
      runs (resolveEquityPosition module hooks sender recipient quantity isIssue) u rest = .ok v →
      v.setToken = w.setToken ∧
        (∀ a ∈ rest, v.balance a.component + out a = u.balance a.component + back a) ∧
        ∀ t, t ∉ rest.map IssuanceUnits.component → v.balance t = u.balance t by
    obtain ⟨hset, hin, _⟩ := hall units w (fun _ ha => ha) hnodup rfl h
    exact ⟨hset, hin⟩
  intro rest
  induction rest with
  | nil =>
    intro u _ _ hu hrun
    obtain rfl : u = v := by simpa using hrun
    exact ⟨hu, fun a ha => absurd ha List.not_mem_nil, fun _ _ => rfl⟩
  | cons a rest ih =>
    intro u hmem hnodup hu hrun
    obtain ⟨t, ht, hrun⟩ := (runs_cons_eq_ok _).mp hrun
    rw [List.map_cons, List.nodup_cons] at hnodup
    have ha := hmem a List.mem_cons_self
    obtain ⟨halone, hbalance⟩ := hstep u a t hu
      (movedByHooks_of_no_equity (hamounts a ha).2) ht
    obtain ⟨hset, hin, hout⟩ := ih t (fun b hb => hmem b (List.mem_cons_of_mem a hb)) hnodup.2
      (halone.setToken.trans hu) hrun
    refine ⟨hset, fun b hb => ?_, fun c hc => ?_⟩
    · rcases List.mem_cons.mp hb with rfl | hb
      · rw [hout _ hnodup.1, hbalance]
      · have hne : b.component ≠ a.component := fun heq =>
          hnodup.1 (heq ▸ List.mem_map_of_mem hb)
        rw [hin b hb, halone.balance _ hne]
    · rw [List.map_cons, List.mem_cons, not_or] at hc
      rw [hout c hc.2, halone.balance c hc.1]

end Resolution

/-! ### Issue and redeem -/

/-- The part of a fee that is not minted. -/
def unminted (managerFee protocolFee : Nat) : Nat := if managerFee = 0 then protocolFee else 0

/-- Beyond what backs the default units of a component there is enough for the carry, next to what
rounding down leaves of the default part and to what backs the part of the fee never minted. -/
def CarryCovered (w : IssuanceWorld χ) (total lost : Nat) (component : Address) : Prop :=
  defaultEquity w.setToken component * w.setToken.totalSupply +
      carry w.setToken component total * preciseUnit ≤
    w.balance component * preciseUnit + defaultEquity w.setToken component * total % preciseUnit +
      defaultEquity w.setToken component * lost

section Backing
variable {module : Address} {hooks : Address → ModuleIssuanceHook χ} {w w₁ v : IssuanceWorld χ}
  {sender recipient : Address} {quantity total managerFee protocolFee : Nat}

theorem resolveFees_supply (h : resolveFees module w managerFee protocolFee = .ok v) :
    v.setToken.totalSupply + unminted managerFee protocolFee =
      w.setToken.totalSupply + (managerFee + protocolFee) := by
  obtain ⟨hminted, hnone⟩ := resolveFees_credited h
  unfold unminted
  split_ifs with hmanager
  · rw [hnone hmanager, hmanager, Nat.zero_add]
  · exact (hminted (Nat.pos_of_ne_zero hmanager)).1

variable (hwf : w.setToken.WellFormed) (hequity : AllEquity w.setToken)
  (hmoves : MovesExactly hooks w.setToken)
include hwf hequity hmoves

/-- What a redemption does to the supply and to each balance. -/
theorem redeem_balance
    (hfees : calculateTotalFees module w.setToken w.rest.issuanceSettings quantity false =
      .ok (total, managerFee, protocolFee))
    (h : redeemResolved module hooks w sender quantity recipient = .ok v) :
    w.setToken.SamePositions v.setToken ∧
      v.setToken.totalSupply + total + unminted managerFee protocolFee = w.setToken.totalSupply ∧
      ∀ component ∈ w.setToken.components,
        v.balance component + defaultEquity w.setToken component * total / preciseUnit +
          carry w.setToken component total = w.balance component := by
  simp only [redeemResolved, bind_eq_ok, World.callSetToken_eq_ok] at h
  obtain ⟨w₀, ⟨s, hburn, hw₀⟩, fees, hfees', units, hunits, w₁, hdebts, w₂, hequities, hresolved⟩ := h
  obtain ⟨hburned, hsupply⟩ := SetToken.burn_totalSupply hburn
  have hcontroller := (SetToken.burn_credited hburn).2
  obtain rfl : (total, managerFee, protocolFee) = fees := by
    rw [← hw₀, calculateTotalFees, hcontroller] at hfees'
    exact Except.ok.inj (hfees.symm.trans hfees')
  have hsame : w.setToken.SamePositions w₀.setToken := by
    rw [← hw₀]
    exact hburned
  have hwf₀ := hwf.of_same hsame
  have hequity₀ := hequity.of_same hsame
  obtain ⟨hmap, hamounts⟩ := required_equity hwf₀ hequity₀ hunits
  obtain rfl : w₀ = w₁ := (resolveDebts_none (fun a ha => (hamounts a ha).1) hdebts).symm
  obtain ⟨hset, hbalances⟩ := resolveEquities_balance IssuanceUnits.equity
    (fun a => movedByHooks w.setToken a.component total) (hmap ▸ hwf₀.components.nodup) hwf₀ hequity₀
    hunits (fun u a t hu hzero ht => hmoves.resolveEquity_redeem (hu ▸ hsame)
      (movedByHooks_of_same hsame a.component total ▸ hzero) ht) hequities
  obtain ⟨hminted, _⟩ := resolveFees_same hresolved
  have hlost := resolveFees_supply hresolved
  obtain ⟨_, hsum, htotal⟩ := calculateTotalFees_eq_ok hfees
  rw [if_neg Bool.false_ne_true] at htotal
  have hsupply₀ : w₂.setToken.totalSupply = s.totalSupply := by
    rw [hset, ← hw₀]
  dsimp only at hlost
  refine ⟨hsame.trans (hset ▸ hminted), by omega, fun component hc => ?_⟩
  rw [← hsame.components, ← hmap] at hc
  obtain ⟨a, ha, rfl⟩ := List.mem_map.mp hc
  have hbalance := hbalances a ha
  have hamount := (hamounts a ha).2
  rw [if_neg Bool.false_ne_true, defaultEquity_of_same hsame,
    externalEquities_of_same hsame, equity_floor] at hamount
  dsimp only at hamount
  have hbalance₀ : w₀.balance a.component = w.balance a.component := by
    rw [World.balance, World.balance, hsame.self, ← hw₀]
  rw [resolveFees_balance hresolved]
  omega

/-- What an issuance does to the supply and to each balance. -/
theorem issue_balance
    (hfees : calculateTotalFees module w.setToken w.rest.issuanceSettings quantity true =
      .ok (total, managerFee, protocolFee))
    (h : issueResolved module hooks w sender quantity recipient = .ok v) :
    w.setToken.SamePositions v.setToken ∧
      v.setToken.totalSupply + unminted managerFee protocolFee = w.setToken.totalSupply + total ∧
      ∀ component ∈ w.setToken.components,
        v.balance component + movedByHooks w.setToken component total = w.balance component +
          (defaultEquity w.setToken component + (externalEquities w.setToken component).sum) *
            total ⌈/⌉ preciseUnit := by
  simp only [issueResolved, bind_eq_ok, World.callSetToken_eq_ok] at h
  obtain ⟨fees, hfees', units, hunits, w₁, hequities, w₂, hdebts, w₃, hresolved, s, hmint, hv⟩ := h
  obtain rfl := Except.ok.inj (hfees.symm.trans hfees')
  obtain ⟨hmap, hamounts⟩ := required_equity hwf hequity hunits
  obtain ⟨hset, hbalances⟩ := resolveEquities_balance
    (fun a => movedByHooks w.setToken a.component total) IssuanceUnits.equity
    (hmap ▸ hwf.components.nodup) hwf hequity hunits
    (fun u a t hu hzero ht => hmoves.resolveEquity_issue (hu ▸ .refl _) hzero ht) hequities
  obtain rfl := resolveDebts_none (fun a ha => (hamounts a ha).1) hdebts
  obtain ⟨hminted, _⟩ := resolveFees_same hresolved
  have hlost := resolveFees_supply hresolved
  obtain ⟨_, hsum, htotal⟩ := calculateTotalFees_eq_ok hfees
  rw [if_pos rfl] at htotal
  obtain ⟨hmintSame, hsupply⟩ := SetToken.mint_totalSupply hmint
  have hsame : w.setToken.SamePositions w₃.setToken := hset ▸ hminted
  have hsupply₂ : w₂.setToken.totalSupply = w.setToken.totalSupply := by rw [hset]
  subst hv
  refine ⟨hsame.trans hmintSame, ?_, fun component hc => ?_⟩
  · show s.totalSupply + unminted managerFee protocolFee = w.setToken.totalSupply + total
    dsimp only at hlost
    omega
  · rw [← hmap] at hc
    obtain ⟨a, ha, rfl⟩ := List.mem_map.mp hc
    have hamount := (hamounts a ha).2
    rw [if_pos rfl] at hamount
    rw [← hamount, ← hbalances a ha, ← resolveFees_balance hresolved, World.balance, World.balance,
      hmintSame.self]

/-- Issuing pays the default part rounded up at least. -/
theorem issue_backed (hbacked : Backed w)
    (h : issueResolved module hooks w sender quantity recipient = .ok v) : Backed v := by
  obtain ⟨⟨total, managerFee, protocolFee⟩, hfees, _⟩ := bind_eq_ok.mp h
  obtain ⟨hsame, hsupply, hbalances⟩ := issue_balance hwf hequity hmoves hfees h
  intro component hc
  rw [hsame.components] at hc
  rw [defaultEquity_of_same hsame]
  have hbalance := congrArg (· * preciseUnit) (hbalances component hc)
  simp only [Nat.add_mul] at hbalance
  have hceil := equity_ceil w.setToken component total
  have hbacked := hbacked component hc
  have hgrown : defaultEquity w.setToken component * v.setToken.totalSupply ≤
      defaultEquity w.setToken component * w.setToken.totalSupply +
        defaultEquity w.setToken component * total := by
    rw [← Nat.mul_add]
    exact Nat.mul_le_mul_left _ (by omega)
  rw [Nat.add_mul] at hceil
  omega

/-- Redeeming keeps the backing exactly where the carries are covered. -/
theorem redeem_backed_iff
    (hfees : calculateTotalFees module w.setToken w.rest.issuanceSettings quantity false =
      .ok (total, managerFee, protocolFee))
    (h : redeemResolved module hooks w sender quantity recipient = .ok v) :
    Backed v ↔ ∀ component ∈ w.setToken.components,
      CarryCovered w total (unminted managerFee protocolFee) component := by
  obtain ⟨hsame, hsupply, hbalances⟩ := redeem_balance hwf hequity hmoves hfees h
  rw [Backed, hsame.components]
  refine forall₂_congr fun component hc => ?_
  rw [defaultEquity_of_same hsame, CarryCovered]
  have hbalance := congrArg (· * preciseUnit) (hbalances component hc)
  have hunits := congrArg (defaultEquity w.setToken component * ·) hsupply
  have hdivided := Nat.div_add_mod (defaultEquity w.setToken component * total) preciseUnit
  simp only [Nat.add_mul] at hbalance
  simp only [Nat.mul_add] at hunits
  rw [Nat.mul_comm preciseUnit] at hdivided
  omega

end Backing

/-- **What the default positions are left with.** Where the hooks move exactly their part of each
external position, all of them equity, issuing keeps every default position backed, and redeeming
keeps them backed exactly where every component covers the carry. -/
theorem backed_iff {module : Address} {hooks : Address → ModuleIssuanceHook χ}
    {w w₁ v : IssuanceWorld χ} {sender recipient : Address} {quantity : Nat} (hwf : w₁.setToken.WellFormed)
    (hequity : AllEquity w₁.setToken) (hmoves : MovesExactly hooks w₁.setToken)
    (hbacked : Backed w₁) :
    (∀ managerHooks, callModulePreIssueHooks module hooks w quantity = .ok w₁ →
      issue module hooks managerHooks w sender quantity recipient = .ok v → Backed v) ∧
    (callModulePreRedeemHooks module hooks w quantity = .ok w₁ →
      redeem module hooks w sender quantity recipient = .ok v →
      ∀ total managerFee protocolFee,
        calculateTotalFees module w₁.setToken w₁.rest.issuanceSettings quantity false =
          .ok (total, managerFee, protocolFee) →
        (Backed v ↔ ∀ component ∈ w₁.setToken.components,
          CarryCovered w₁ total (unminted managerFee protocolFee) component)) := by
  constructor
  · intro managerHooks hpre h
    simp only [issue, bind_eq_ok] at h
    obtain ⟨_, _, _, _, _, _, w₂, hpre', h⟩ := h
    obtain rfl := Except.ok.inj (hpre.symm.trans hpre')
    exact issue_backed hwf hequity hmoves hbacked h
  · intro hpre h total managerFee protocolFee hfees
    simp only [redeem, bind_eq_ok] at h
    obtain ⟨_, _, _, _, w₂, hpre', h⟩ := h
    obtain rfl := Except.ok.inj (hpre.symm.trans hpre')
    exact redeem_backed_iff hwf hequity hmoves hfees h

/-! Half of each share's token is in the SetToken, half in a vault at 30 that the module at 11
looks after. One of two shares is redeemed. -/

/-- What the vault moves for the quantity. -/
def vaultNotional (m : Address) (s : SetToken) (quantity : Nat) (component : Address) :
    Result Nat := do
  let realUnit ← s.getExternalPositionRealUnit component m
  let unit ← SafeCast.toUint256 realUnit
  preciseMul unit quantity

def vaultHooks (m : Address) : ModuleIssuanceHook Unit where
  moduleIssueHook := fun _ w _ => pure w
  moduleRedeemHook := fun _ w _ => pure w
  componentIssueHook := fun _ w quantity component _ => do
    let notional ← vaultNotional m w.setToken quantity component
    w.callToken component (·.transferInternal w.setToken.self 30 notional)
  componentRedeemHook := fun _ w quantity component _ => do
    let notional ← vaultNotional m w.setToken quantity component
    w.callToken component (·.transferInternal 30 w.setToken.self notional)

theorem vaultNotional_eq_ok {m : Address} {quantity notional : Nat}
    (h : vaultNotional m s quantity component = .ok notional) :
    notional = externalEquity s component m * quantity / preciseUnit := by
  simp only [vaultNotional, bind_eq_ok, SetToken.getExternalPositionRealUnit_eq_ok,
    SafeCast.toUint256_eq_ok, preciseMul_eq_ok] at h
  obtain ⟨_, ⟨_, rfl⟩, unit, hunit, _, rfl⟩ := h
  rw [externalEquity, hunit, Int.toNat_natCast]

theorem vaultHooks_movesExactly (hself : s.self ≠ 30) : MovesExactly vaultHooks s := by
  have hunit {w : IssuanceWorld Unit} (hsame : s.SamePositions w.setToken) (c m : Address) :
      externalEquity w.setToken c m = externalEquity s c m := by
    rw [externalEquity, externalEquity, hsame.externalRealUnit]
  constructor
  · intro c m _ caller w quantity v hsame h
    obtain ⟨notional, hnotional, hcall⟩ := bind_eq_ok.mp h
    obtain ⟨hsameBut, htransfer⟩ := World.callToken_sameBut hcall
    have hmoved := (Erc20.transferInternal_moved htransfer).1.at_sender (hsame.self ▸ hself)
    refine ⟨.of_sameBut hsameBut, ?_⟩
    rw [← hunit hsame, ← vaultNotional_eq_ok hnotional, World.balance, World.balance,
      hsameBut.setToken, hmoved]
  · intro c m _ caller w quantity v hsame h
    obtain ⟨notional, hnotional, hcall⟩ := bind_eq_ok.mp h
    obtain ⟨hsameBut, htransfer⟩ := World.callToken_sameBut hcall
    have hmoved := (Erc20.transferInternal_moved htransfer).1.at_recipient
      (hsame.self ▸ hself.symm)
    refine ⟨.of_sameBut hsameBut, ?_⟩
    rw [← hunit hsame, ← vaultNotional_eq_ok hnotional, World.balance, World.balance,
      hsameBut.setToken, hmoved]

def exampleController : Controller where
  isInitialized := true
  isSet := fun _ => false
  isFactory := fun a => a == 7
  isModule := fun a => a == 10 || a == 11
  fees := fun _ _ => 0
  feeRecipient := 6
  integrationAdapter := fun _ _ => 0

/-- Two shares, of which the SetToken holds the balance. -/
def exampleWorld (balance : Nat) : Result (IssuanceWorld Unit) := do
  let s ← SetTokenCreator.create exampleController 7 20 [1] [5 * 10 ^ 17] [10, 11] 9
  let s ← runs SetToken.call s [.initializeModule 10, .initializeModule 11,
    .edit (.editExternalPosition 11 1 11 (5 * 10 ^ 17) []), .mint 10 5 2]
  pure
    { setToken := s
      tokens := fun _ =>
        { balances := fun a => if a = 20 then balance else if a = 30 then 1 else 0
          allowances := fun _ _ => 0
          totalSupply := balance + 1 }
      rest :=
        { issuanceSettings := ⟨0, 0, 0, 8, 0, [], fun _ => false⟩
          others := () } }

theorem exampleWorld_wellFormed {balance : Nat} {w : IssuanceWorld Unit}
    (h : exampleWorld balance = .ok w) :
    w.setToken.WellFormed ∧ ∀ quantity, callModulePreRedeemHooks 10 vaultHooks w quantity = .ok w := by
  simp only [exampleWorld, bind_eq_ok, pure_eq_ok] at h
  obtain ⟨s, hcreate, t, hcalls, rfl⟩ := h
  exact ⟨SetToken.reachable_wellFormed hcreate hcalls, fun _ => rfl⟩

/-- The one component has one external position, above zero. -/
theorem exampleWorld_allEquity {balance : Nat} {w : IssuanceWorld Unit}
    (h : exampleWorld balance = .ok w) (hcomponents : w.setToken.components = [1])
    (hmodules : w.setToken.externalPositionModules 1 = [11])
    (hunit : w.setToken.externalRealUnit 1 11 = 5 * 10 ^ 17) : AllEquity w.setToken := by
  intro c m hm
  have hc : c ∈ w.setToken.components :=
    (exampleWorld_wellFormed h).1.mem_components.mpr (.inr (List.ne_nil_of_mem hm))
  rw [hcomponents, List.mem_singleton] at hc
  subst hc
  rw [hmodules, List.mem_singleton] at hm
  subst hm
  rw [hunit]
  decide

/-- With a second token in the SetToken the carry is covered. -/
theorem backed_iff_example : ∃ w v, exampleWorld 2 = .ok w ∧
    redeem 10 vaultHooks w 5 1 5 = .ok v ∧ Backed v := by
  have h : (do
      let w ← exampleWorld 2
      let _ ← redeem 10 vaultHooks w 5 1 5
      let fees ← calculateTotalFees 10 w.setToken w.rest.issuanceSettings 1 false
      require (fees = (1, 0, 0) ∧ w.setToken.components = [1] ∧
        w.setToken.externalPositionModules 1 = [11] ∧
        w.setToken.externalRealUnit 1 11 = 5 * 10 ^ 17 ∧ w.setToken.self = 20 ∧
        defaultEquity w.setToken 1 = 5 * 10 ^ 17 ∧ w.setToken.totalSupply = 2 ∧
        w.balance 1 = 2 ∧ carry w.setToken 1 1 = 1) "") = .ok () := by
    decide +kernel
  simp only [bind_eq_ok, require_eq_ok] at h
  obtain ⟨w, hw, v, hv, _, hfees, rfl, hcomponents, hmodules, hunit, hself, hdefault, hsupply, hbalance,
    hcarry⟩ := h
  obtain ⟨hwf, hpre⟩ := exampleWorld_wellFormed hw
  have hbacked : Backed w := by
    intro c hc
    rw [hcomponents, List.mem_singleton] at hc
    rw [hc, hdefault, hsupply, hbalance]
    decide
  have hmoves : MovesExactly vaultHooks w.setToken :=
    vaultHooks_movesExactly (by rw [hself]; decide)
  have hequity := exampleWorld_allEquity hw hcomponents hmodules hunit
  refine ⟨w, v, hw, hv, ?_⟩
  refine ((backed_iff hwf hequity hmoves hbacked).2 (hpre 1) hv 1 0 0 hfees).mpr fun c hc => ?_
  rw [hcomponents, List.mem_singleton] at hc
  rw [CarryCovered, hc, hdefault, hsupply, hbalance, hcarry]
  decide

/-- With one token, the share that is left has none. -/
theorem redeem_unbacked : ∃ w v, exampleWorld 1 = .ok w ∧ Backed w ∧
    AllEquity w.setToken ∧ MovesExactly vaultHooks w.setToken ∧
    redeem 10 vaultHooks w 5 1 5 = .ok v ∧ ¬Backed v := by
  have h : (do
      let w ← exampleWorld 1
      let v ← redeem 10 vaultHooks w 5 1 5
      require (w.setToken.components = [1] ∧ w.setToken.externalPositionModules 1 = [11] ∧
        w.setToken.externalRealUnit 1 11 = 5 * 10 ^ 17 ∧ w.setToken.self = 20 ∧
        defaultEquity w.setToken 1 = 5 * 10 ^ 17 ∧ w.setToken.totalSupply = 2 ∧
        w.balance 1 = 1) ""
      require (v.setToken.components = [1] ∧ defaultEquity v.setToken 1 = 5 * 10 ^ 17 ∧
        v.setToken.totalSupply = 1 ∧ v.balance 1 = 0) "") = .ok () := by
    decide +kernel
  simp only [bind_eq_ok, require_eq_ok, exists_const] at h
  obtain ⟨w, hw, v, hv, ⟨hcomponents, hmodules, hunit, hself, hdefault, hsupply, hbalance⟩,
    hcomponents', hdefault', hsupply', hbalance'⟩ := h
  refine ⟨w, v, hw, fun c hc => ?_, exampleWorld_allEquity hw hcomponents hmodules hunit,
    vaultHooks_movesExactly (by rw [hself]; decide), hv, fun hbacked => ?_⟩
  · rw [hcomponents, List.mem_singleton] at hc
    rw [hc, hdefault, hsupply, hbalance]
    decide
  · have hleft := hbacked 1 (by rw [hcomponents']; decide)
    rw [hdefault', hsupply', hbalance'] at hleft
    exact absurd hleft (by decide)

end DebtIssuanceModule

end IndexProtocol
