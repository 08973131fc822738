import IndexProtocol.Issuance.Basic
import IndexProtocol.Fees.Streaming

/-! A SetToken with basic issuance and streaming fees, and what backs its shares.

A Set is collateralised when its balance of every component pays the real unit
of every share. Issuing and redeeming keep that. Accruing a fee need not: the
real unit that was paid for is rounded down, the fee is taken from the unit
before rounding, so a fee too small to move the real unit adds shares and takes
nothing. It does keep it where the balances cover the units before rounding. -/
namespace IndexProtocol
open Evm PreciseUnitMath

/-- The state of the two modules for the SetToken. -/
structure FundState where
  managerIssuanceHook : Address
  feeState : FeeState

abbrev Fund := World FundState

namespace Fund

inductive Action where
  | initializeIssuance (sender preIssueHook : Address)
  | initializeFees (timestamp : Nat) (sender : Address) (settings : FeeState)
  | issue (sender recipient : Address) (quantity : Nat)
  | redeem (sender recipient : Address) (quantity : Nat)
  | accrueFee (timestamp : Nat)
  | updateStreamingFee (timestamp : Nat) (sender : Address) (newFee : Nat)
  | updateFeeRecipient (sender newFeeRecipient : Address)
  /-- Approvals and protocol fees change. -/
  | changeController (controller : Controller)
  /-- Holders of a component move it; the SetToken does so only when a module invokes it. -/
  | transferToken (token caller recipient : Address) (amount : Nat)
  | approveToken (token caller spender : Address) (amount : Nat)
  | transferShares (caller recipient : Address) (amount : Nat)

/-- The new SetToken and fee state. -/
def withFees (w : Fund) (result : SetToken × FeeState) : Fund :=
  { w with setToken := result.1, rest := { w.rest with feeState := result.2 } }

variable (issuance streaming : Address) (hooks : Address → PreIssueHook FundState)

def step (w : Fund) : Action → Result Fund
  | .initializeIssuance sender preIssueHook => do
    let (s, hook) ← BasicIssuanceModule.initializeSet issuance w.setToken sender preIssueHook
    pure { w with setToken := s, rest := { w.rest with managerIssuanceHook := hook } }
  | .initializeFees timestamp sender settings =>
    withFees w <$> StreamingFeeModule.initializeSet streaming timestamp w.setToken sender settings
  | .issue sender recipient quantity =>
    BasicIssuanceModule.issue issuance hooks w.rest.managerIssuanceHook w sender quantity recipient
  | .redeem sender recipient quantity =>
    BasicIssuanceModule.redeem issuance w sender quantity recipient
  | .accrueFee timestamp =>
    withFees w <$> StreamingFeeModule.accrueFee streaming timestamp w.setToken w.rest.feeState
  | .updateStreamingFee timestamp sender newFee =>
    withFees w <$> StreamingFeeModule.updateStreamingFee streaming timestamp w.setToken
      w.rest.feeState sender newFee
  | .updateFeeRecipient sender newFeeRecipient => do
    let state ← StreamingFeeModule.updateFeeRecipient streaming w.setToken w.rest.feeState sender
      newFeeRecipient
    pure { w with rest := { w.rest with feeState := state } }
  | .changeController controller =>
    pure { w with setToken := { w.setToken with controller := controller } }
  | .transferToken token caller recipient amount => do
    require (caller ≠ w.setToken.self) "Not the SetToken"
    w.callToken token (·.transfer caller recipient amount)
  | .approveToken token caller spender amount => do
    require (caller ≠ w.setToken.self) "Not the SetToken"
    w.callToken token (·.approve caller spender amount)
  | .transferShares caller recipient amount => do
    let erc20 ← w.setToken.erc20.transfer caller recipient amount
    pure { w with setToken := { w.setToken with erc20 := erc20 } }

/-- The balance of every component pays the real unit of every share. -/
def Collateralised (w : Fund) : Prop :=
  ∀ component, w.setToken.defaultRealUnit component * w.setToken.totalSupply ≤
    (w.balance component : Int) * preciseUnitInt

/-- The balance of every component covers the unit of every share before it is rounded. -/
def CoversUnroundedUnits (w : Fund) : Prop :=
  ∀ component ∈ w.setToken.components,
    w.setToken.defaultPositionVirtualUnit component * w.setToken.positionMultiplier *
        w.setToken.totalSupply ≤
      (w.balance component : Int) * preciseUnitInt * preciseUnitInt

instance (w : Fund) : Decidable (CoversUnroundedUnits w) :=
  List.decidableBAll _ _

/-- An accrual at this time mints no shares. -/
def MintsNothing (timestamp : Nat) (w : Fund) : Prop :=
  ∀ feePercentage feeQuantity,
    StreamingFeeModule.calculateStreamingFee timestamp w.rest.feeState = .ok feePercentage →
    StreamingFeeModule.calculateStreamingFeeInflation w.setToken feePercentage = .ok feeQuantity →
    feeQuantity = 0

/-- Accruals that mint shares happen only where the unrounded units are covered. -/
def AccruesCovered (w : Fund) : Action → Prop
  | .accrueFee timestamp => MintsNothing timestamp w ∨ CoversUnroundedUnits w
  | .updateStreamingFee timestamp _ _ => MintsNothing timestamp w ∨ CoversUnroundedUnits w
  | _ => True

variable {issuance streaming hooks} {w v : Fund}

/-! ### What is paid for stays paid for -/

theorem collateralised_iff (hwf : w.setToken.WellFormed) :
    Collateralised w ↔ ∀ component, Covered preciseUnit
      (w.setToken.defaultRealUnit component).toNat (w.balance component) w.setToken.totalSupply := by
  refine forall_congr' fun component => ?_
  obtain ⟨unit, hunit⟩ := Int.eq_ofNat_of_zero_le (hwf.defaultRealUnit_nonneg (c := component))
  rw [hunit, Int.toNat_natCast, Covered, ← preciseUnit_cast]
  norm_cast

/-- Nothing was paid out and nothing issued. -/
theorem Collateralised.mono (h : Collateralised w) (hsame : w.setToken.SamePositions v.setToken)
    (hsupply : v.setToken.totalSupply = w.setToken.totalSupply)
    (hbalance : ∀ component, w.balance component ≤ v.balance component) : Collateralised v := by
  intro component
  rw [hsame.defaultRealUnit, hsupply]
  exact (h component).trans (Int.mul_le_mul_of_nonneg_right
    (Int.ofNat_le.mpr (hbalance component)) preciseUnitInt_pos.le)

/-- Components are paid for after a call where each pool stays covered. -/
theorem Collateralised.of_components (h : Collateralised w) (hwf : w.setToken.WellFormed)
    (hsame : w.setToken.SamePositions v.setToken)
    (hcovered : ∀ component ∈ w.setToken.components,
      Covered preciseUnit (w.setToken.defaultRealUnit component).toNat (w.balance component)
          w.setToken.totalSupply →
        Covered preciseUnit (w.setToken.defaultRealUnit component).toNat (v.balance component)
          v.setToken.totalSupply) : v.setToken.WellFormed ∧ Collateralised v := by
  have hwf' := hwf.of_same hsame
  refine ⟨hwf', (collateralised_iff hwf').mpr fun component => ?_⟩
  rw [hsame.defaultRealUnit]
  by_cases hc : component ∈ w.setToken.components
  · exact hcovered component hc ((collateralised_iff hwf).mp h component)
  · rw [hwf.defaultRealUnit_of_notMem hc]
    simp [Covered]

theorem issue_collateralised {hook sender recipient : Address} {quantity : Nat}
    (hwf : w.setToken.WellFormed) (h : Collateralised w)
    (hissue : BasicIssuanceModule.issue issuance hooks hook w sender quantity recipient = .ok v) :
    v.setToken.WellFormed ∧ Collateralised v := by
  obtain ⟨hmint, _, hin, _⟩ := BasicIssuanceModule.issue_eq hwf.components.nodup hissue
  obtain ⟨hsame, hsupply⟩ := SetToken.mint_totalSupply hmint
  refine h.of_components hwf hsame fun component hc hcovered => ?_
  obtain ⟨unit, hunit, hbalance⟩ := hin component hc
  rw [hunit, Int.toNat_natCast] at hcovered ⊢
  exact hcovered.join preciseUnit_pos hbalance.ge hsupply

theorem redeem_collateralised {sender recipient : Address} {quantity : Nat}
    (hwf : w.setToken.WellFormed) (h : Collateralised w)
    (hredeem : BasicIssuanceModule.redeem issuance w sender quantity recipient = .ok v) :
    v.setToken.WellFormed ∧ Collateralised v := by
  obtain ⟨hburn, _, hin, _⟩ := BasicIssuanceModule.redeem_eq hwf.components.nodup hredeem
  obtain ⟨hsame, hsupply⟩ := SetToken.burn_totalSupply hburn
  refine h.of_components hwf hsame fun component hc hcovered => ?_
  obtain ⟨unit, hunit, hbalance⟩ := hin component hc
  rw [hunit, Int.toNat_natCast] at hcovered ⊢
  exact hcovered.leave hbalance hsupply

/-! ### Accruing a fee -/

/-- The unit after an accrual, in units of the library of pools. -/
theorem accrued_covered {s t : SetToken} {feePercentage feeQuantity balance : Nat}
    {component : Address} (hwf : s.WellFormed)
    (ha : StreamingFeeModule.Accrued s t feePercentage feeQuantity)
    (hcovers : s.defaultPositionVirtualUnit component * s.positionMultiplier * s.totalSupply ≤
      (balance : Int) * preciseUnitInt * preciseUnitInt) :
    Covered preciseUnit (t.defaultRealUnit component).toNat balance t.totalSupply := by
  obtain ⟨hm', _, hshrinks⟩ := ha.shrinks hwf.multiplier_pos
  obtain ⟨value, hvalue⟩ := Int.eq_ofNat_of_zero_le (hwf.sound.default_nonneg component)
  obtain ⟨m, hm⟩ := Int.eq_ofNat_of_zero_le hwf.multiplier_pos.le
  obtain ⟨m', hm'⟩ := Int.eq_ofNat_of_zero_le hm'
  have hvalue' : s.defaultPositionVirtualUnit component = (value : Int) := hvalue
  have hunit : t.defaultRealUnit component = ((value * m' / preciseUnit : Nat) : Int) := by
    rw [SetToken.defaultRealUnit, SetToken.scale, hm', SetToken.defaultPositionVirtualUnit,
      ha.componentPositions, ← SetToken.defaultPositionVirtualUnit, hvalue', ← preciseUnit_cast]
    rfl
  rw [hm, hm', Int.toNat_natCast, Int.toNat_natCast] at hshrinks
  rw [hunit, Int.toNat_natCast]
  refine Covered.dilute preciseUnit_pos ?_ hshrinks
  rw [hvalue', hm, ← preciseUnit_cast] at hcovers
  exact_mod_cast hcovers

/-- One accrual under the condition, whatever else becomes of the fee state. -/
theorem accrueFee_collateralised {timestamp : Nat} {result : SetToken × FeeState} (state : FeeState)
    (hwf : w.setToken.WellFormed) (h : Collateralised w)
    (hcondition : MintsNothing timestamp w ∨ CoversUnroundedUnits w)
    (haccrue : StreamingFeeModule.accrueFee streaming timestamp w.setToken w.rest.feeState =
      .ok result) :
    (withFees w (result.1, state)).setToken.WellFormed ∧
      Collateralised (withFees w (result.1, state)) := by
  rcases StreamingFeeModule.accrueFee_eq haccrue with hsame | hfee
  · have hset : (withFees w (result.1, state)).setToken = w.setToken := hsame
    refine ⟨hset ▸ hwf, h.mono ?_ (by rw [hset]) fun component => ?_⟩
    · rw [hset]
      exact .refl _
    · rw [World.balance, World.balance, hset]
      exact le_rfl
  · have hwf' := StreamingFeeModule.actualizeFee_wellFormed hwf hfee
    obtain ⟨feePercentage, feeQuantity, hpercentage, hquantity, ha⟩ :=
      StreamingFeeModule.actualizeFee_eq hfee
    have hbalance (component : Address) :
        (withFees w (result.1, state)).balance component = w.balance component := by
      simp only [World.balance, withFees, ha.self]
    refine ⟨hwf', (collateralised_iff hwf').mpr fun component => ?_⟩
    rw [hbalance]
    rcases hcondition with hnothing | hcovers
    · -- The supply stays, and a smaller multiplier leaves smaller units.
      obtain rfl := hnothing _ _ hpercentage hquantity
      obtain ⟨_, hle, _⟩ := ha.shrinks hwf.multiplier_pos
      refine ((collateralised_iff hwf).mp h component).mono le_rfl ha.totalSupply.le ?_
      refine Int.toNat_le_toNat (Int.ediv_le_ediv preciseUnitInt_pos ?_)
      simp only [withFees, SetToken.defaultPositionVirtualUnit, ha.componentPositions]
      exact Int.mul_le_mul_of_nonneg_left hle (hwf.sound.default_nonneg component)
    · by_cases hc : component ∈ w.setToken.components
      · exact accrued_covered hwf ha (hcovers component hc)
      · have hnot : component ∉ result.1.components := ha.components ▸ hc
        have hzero := hwf'.defaultRealUnit_of_notMem hnot
        simp [withFees, hzero, Covered]

/-- A token moved by another account, never out of the SetToken. -/
theorem callToken_collateralised {token : Address} {call : Erc20 → Result Erc20}
    (h : w.setToken.WellFormed ∧ Collateralised w) (hcall : w.callToken token call = .ok v)
    (hle : ∀ t, call (w.tokens token) = .ok t →
      (w.tokens token).balanceOf w.setToken.self ≤ t.balanceOf w.setToken.self) :
    v.setToken.WellFormed ∧ Collateralised v := by
  obtain ⟨hsame, ht⟩ := World.callToken_sameBut hcall
  rw [hsame.setToken]
  refine ⟨h.1, h.2.mono (by rw [hsame.setToken]; exact .refl _) (by rw [hsame.setToken])
    fun component => ?_⟩
  by_cases hc : component = token
  · subst hc
    rw [World.balance, World.balance, hsame.setToken]
    exact hle _ ht
  · exact (hsame.balance_of_ne hc).ge

/-- One action keeps the Set collateralised, accruals under their condition. -/
theorem step_collateralised {a : Action} (h : w.setToken.WellFormed ∧ Collateralised w)
    (hcondition : AccruesCovered w a) (hstep : step issuance streaming hooks w a = .ok v) :
    v.setToken.WellFormed ∧ Collateralised v := by
  cases a with
  | initializeIssuance sender preIssueHook =>
    simp only [step, BasicIssuanceModule.initializeSet, bind_eq_ok, pure_eq_ok] at hstep
    obtain ⟨_, ⟨_, _, _, _, s, hs, rfl⟩, rfl⟩ := hstep
    obtain ⟨hsame, hsupply⟩ := SetToken.initializeModule_same hs
    exact ⟨h.1.of_same hsame, h.2.mono hsame hsupply fun component => by
      simp only [World.balance, hsame.self]; exact le_rfl⟩
  | initializeFees timestamp sender settings =>
    simp only [step, StreamingFeeModule.initializeSet, map_eq_ok, bind_eq_ok, pure_eq_ok] at hstep
    obtain ⟨_, ⟨_, _, _, _, _, _, _, _, _, _, s, hs, rfl⟩, rfl⟩ := hstep
    obtain ⟨hsame, hsupply⟩ := SetToken.initializeModule_same hs
    exact ⟨h.1.of_same hsame, h.2.mono hsame hsupply fun component => by
      simp only [World.balance, withFees, hsame.self]; exact le_rfl⟩
  | issue sender recipient quantity => exact issue_collateralised h.1 h.2 hstep
  | redeem sender recipient quantity => exact redeem_collateralised h.1 h.2 hstep
  | accrueFee timestamp =>
    simp only [step, map_eq_ok] at hstep
    obtain ⟨result, hresult, rfl⟩ := hstep
    exact accrueFee_collateralised _ h.1 h.2 hcondition hresult
  | updateStreamingFee timestamp sender newFee =>
    simp only [step, StreamingFeeModule.updateStreamingFee, map_eq_ok, bind_eq_ok,
      pure_eq_ok] at hstep
    obtain ⟨_, ⟨_, _, _, _, _, _, result, hresult, rfl⟩, rfl⟩ := hstep
    exact accrueFee_collateralised _ h.1 h.2 hcondition hresult
  | updateFeeRecipient sender newFeeRecipient =>
    simp only [step, bind_eq_ok, pure_eq_ok] at hstep
    obtain ⟨_, _, rfl⟩ := hstep
    exact h
  | changeController controller =>
    simp only [step, pure_eq_ok] at hstep
    subst hstep
    exact ⟨h.1.of_same ⟨rfl, rfl, rfl, rfl⟩, h.2.mono ⟨rfl, rfl, rfl, rfl⟩ rfl fun _ => le_rfl⟩
  | transferToken token caller recipient amount =>
    simp only [step, bind_eq_ok, require_eq_ok, exists_const] at hstep
    refine callToken_collateralised h hstep.2 fun t ht => ?_
    have hmoved := (Erc20.transferInternal_moved ht).1 w.setToken.self
    rw [if_neg (Ne.symm hstep.1)] at hmoved
    omega
  | approveToken token caller spender amount =>
    simp only [step, bind_eq_ok, require_eq_ok, exists_const] at hstep
    refine callToken_collateralised h hstep.2 fun t ht => ?_
    rw [Erc20.balanceOf, Erc20.balanceOf, (Erc20.approveInternal_balances ht).1]
  | transferShares caller recipient amount =>
    simp only [step, bind_eq_ok, pure_eq_ok] at hstep
    obtain ⟨erc20, herc20, rfl⟩ := hstep
    exact ⟨h.1.of_same ⟨rfl, rfl, rfl, rfl⟩, h.2.mono ⟨rfl, rfl, rfl, rfl⟩
      (Erc20.transferInternal_moved herc20).2 fun _ => le_rfl⟩

/-- **The collateral theorem.** From no shares, whatever is issued, redeemed and accrued, the Set
stays collateralised, as long as fees that mint shares accrue only where the balances cover the
units before rounding. -/
theorem collateralised_along {actions : List Action} (hwf : w.setToken.WellFormed)
    (hsupply : w.setToken.totalSupply = 0)
    (hcondition : Along (step issuance streaming hooks) AccruesCovered w actions)
    (hrun : runs (step issuance streaming hooks) w actions = .ok v) (component : Address) :
    v.setToken.defaultRealUnit component * v.setToken.totalSupply ≤
      (v.balance component : Int) * preciseUnitInt := by
  have hstart : Collateralised w := fun component => by
    rw [hsupply]
    simp only [Int.natCast_zero, Int.mul_zero]
    exact Int.mul_nonneg (Int.natCast_nonneg _) preciseUnitInt_pos.le
  exact (runs_induction_along (fun w _ => w.setToken.WellFormed ∧ Collateralised w)
    (fun _ _ _ _ => step_collateralised) ⟨hwf, hstart⟩ hcondition hrun).2 component

/-! ### An accrual that leaves shares unpaid

One component of 19 units. A first accrual leaves the multiplier at 0.98 and the real unit at 18,
which is what the shares issued next pay. A tenth of a year later the unit before rounding is still
above 18, and the new shares have nothing behind them. -/

theorem mintsNothing_of_no_supply (timestamp : Nat) (h : w.setToken.totalSupply = 0) :
    MintsNothing timestamp w := by
  intro feePercentage feeQuantity _ hquantity
  simp only [StreamingFeeModule.calculateStreamingFeeInflation, bind_eq_ok, SafeMath.mul_eq_ok,
    SafeMath.div_eq_ok, h] at hquantity
  obtain ⟨_, ⟨_, rfl⟩, _, _, _, rfl⟩ := hquantity
  simp

def exampleController : Controller where
  isInitialized := true
  isSet := fun _ => false
  isFactory := fun a => a == 7
  isModule := fun a => a == 10 || a == 11
  fees := fun _ _ => 0
  feeRecipient := 6
  integrationAdapter := fun _ _ => 0

/-- A new SetToken with both modules initialized. -/
def exampleSet : Result SetToken := do
  let s ← SetTokenCreator.create exampleController 7 20 [1] [19] [10, 11] 9
  runs SetToken.call s [.initializeModule 10, .initializeModule 11]

/-- One issuer, at 5, has the component and has approved the issuance module. -/
def exampleFund (s : SetToken) : Fund where
  setToken := s
  tokens := fun _ =>
    { balances := fun a => if a = 5 then 10 ^ 6 else 0
      allowances := fun a b => if a = 5 ∧ b = 10 then 10 ^ 6 else 0
      totalSupply := 10 ^ 6 }
  rest :=
    { managerIssuanceHook := 0
      feeState := ⟨8, 5 * 10 ^ 16, 2 * 10 ^ 16, 0⟩ }

def noHooks (_ : Address) : PreIssueHook FundState := fun _ _ _ _ => pure ()

theorem exampleSet_spec {s : SetToken} (h : exampleSet = .ok s) :
    s.WellFormed ∧ s.totalSupply = 0 ∧ ∀ component, s.externalPositionModules component = [] := by
  simp only [exampleSet, bind_eq_ok] at h
  obtain ⟨s₀, hcreate, hcalls⟩ := h
  refine ⟨SetToken.reachable_wellFormed hcreate hcalls, ?_⟩
  obtain ⟨s₁, hfirst, hcalls⟩ := (runs_cons_eq_ok _).mp hcalls
  obtain ⟨s₂, hsecond, hcalls⟩ := (runs_cons_eq_ok _).mp hcalls
  obtain rfl : s₂ = s := by simpa using hcalls
  obtain ⟨hsupply, hmodules⟩ := SetToken.create_empty hcreate
  obtain ⟨hsame, hsupply₁⟩ := SetToken.initializeModule_same hfirst
  obtain ⟨hsame', hsupply₂⟩ := SetToken.initializeModule_same hsecond
  refine ⟨by omega, fun component => ?_⟩
  rw [SetToken.externalPositionModules, (hsame.trans hsame').componentPositions]
  exact hmodules component

/-- Issued before the first fee, a thousand shares pay 19 each; the fee makes another twenty. -/
theorem collateralised_along_example :
    ∃ s v, exampleSet = .ok s ∧
      runs (step 10 11 noHooks) (exampleFund s)
        ([.accrueFee 0, .issue 5 5 (10 ^ 21)] ++ [.accrueFee 31557600, .issue 5 5 (10 ^ 20)]) = .ok v ∧
      112 * 10 ^ 19 < v.setToken.totalSupply ∧
      v.setToken.defaultRealUnit 1 * v.setToken.totalSupply ≤ (v.balance 1 : Int) * preciseUnitInt := by
  have h : (do
      let s ← exampleSet
      let u ← runs (step 10 11 noHooks) (exampleFund s) [.accrueFee 0, .issue 5 5 (10 ^ 21)]
      let v ← runs (step 10 11 noHooks) u [.accrueFee 31557600, .issue 5 5 (10 ^ 20)]
      require (CoversUnroundedUnits u ∧ 112 * 10 ^ 19 < v.setToken.totalSupply) "") = .ok () := by
    decide +kernel
  simp only [bind_eq_ok, require_eq_ok] at h
  obtain ⟨s, hs, u, hissued, v, haccrued, hcovers, hminted⟩ := h
  obtain ⟨hwf, hsupply, _⟩ := exampleSet_spec hs
  have hrun := runs_append hissued haccrued
  have hcondition : Along (step 10 11 noHooks) AccruesCovered (exampleFund s)
      ([.accrueFee 0, .issue 5 5 (10 ^ 21)] ++ [.accrueFee 31557600, .issue 5 5 (10 ^ 20)]) := by
    refine along_append ⟨.inl (mintsNothing_of_no_supply _ hsupply),
      fun _ _ => ⟨trivial, fun _ _ => trivial⟩⟩ fun t ht => ?_
    obtain rfl : u = t := Except.ok.inj (hissued.symm.trans ht)
    exact ⟨.inr hcovers, fun _ _ => ⟨trivial, fun _ _ => trivial⟩⟩
  exact ⟨s, v, hs, hrun, hminted, collateralised_along hwf hsupply hcondition hrun 1⟩

theorem accrual_uncollateralised :
    ∃ s v, exampleSet = .ok s ∧ s.WellFormed ∧ s.totalSupply = 0 ∧
      (∀ component, s.externalPositionModules component = []) ∧
      runs (step 10 11 noHooks) (exampleFund s)
        [.accrueFee 31557600, .issue 5 5 (10 ^ 21), .accrueFee 34713360] = .ok v ∧
      ¬v.setToken.defaultRealUnit 1 * v.setToken.totalSupply ≤
        (v.balance 1 : Int) * preciseUnitInt := by
  have h : (fun v : Fund => (v.setToken.defaultRealUnit 1, v.setToken.totalSupply, v.balance 1)) <$>
      (exampleSet >>= fun s => runs (step 10 11 noHooks) (exampleFund s)
        [.accrueFee 31557600, .issue 5 5 (10 ^ 21), .accrueFee 34713360]) =
      .ok (18, 1002004008016032064128, 18000) := by decide +kernel
  simp only [map_eq_ok, bind_eq_ok, Prod.mk.injEq] at h
  obtain ⟨v, ⟨s, hs, hrun⟩, hunit, hsupply, hbalance⟩ := h
  obtain ⟨hwf, hnone, hmodules⟩ := exampleSet_spec hs
  refine ⟨s, v, hs, hwf, hnone, hmodules, hrun, ?_⟩
  rw [hunit, hsupply, hbalance]
  decide

end Fund

end IndexProtocol
