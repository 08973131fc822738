import IndexProtocol.Issuance.Quote

/-! The DebtIssuanceModuleV3: some wei more in, some wei less out.

For tokens that round, issuing takes `tokenTransferBuffer` more equity than the
second version and redeeming pays out so much less, in arithmetic that does not
check. What the module says a redemption pays is cut off at nothing instead. -/
namespace IndexProtocol
open Evm PreciseUnitMath ModuleBase

/-- What is transferred for an amount of equity that is owed. -/
structure EquityTransfers where
  collected : Nat → Nat
  paidOut : Nat → Nat

namespace DebtIssuanceModuleV3
open DebtIssuanceModule (callManagerPreIssueHooks callModulePreIssueHooks callModulePreRedeemHooks
  calculateTotalFees calculateRequiredComponentIssuanceUnits executeExternalPositionHooks resolveFees)
open DebtIssuanceModuleV2 (resolveDebtPositions UnitsKept)
open IssuanceValidationUtils

variable {χ : Type} (module : Address) (tokenTransferBuffer : Nat)
  (hooks : Address → ModuleIssuanceHook χ)

/-- The buffer, added or taken off without a check. -/
def buffered : EquityTransfers where
  collected quantity := (quantity + tokenTransferBuffer) % uintBound
  paidOut quantity := (quantity + uintBound - tokenTransferBuffer) % uintBound

/-- What the module says it pays out. -/
def quotedEquity (equity : Nat) : Nat :=
  if tokenTransferBuffer < equity then equity - tokenTransferBuffer else 0

section Transfers
variable (transfers : EquityTransfers)

def resolveEquityPosition (sender recipient : Address) (quantity : Nat) (isIssue : Bool)
    (initialSetSupply finalSetSupply : Nat) (w : IssuanceWorld χ) (units : IssuanceUnits) :
    Result (IssuanceWorld χ) := do
  if 0 < units.equity then
    if isIssue then
      let w ← SafeERC20.safeTransferFrom w module units.component sender w.setToken.self
        (transfers.collected units.equity)
      validateCollateralizationPostTransferInPreHook w units.component initialSetSupply units.equity
      executeExternalPositionHooks module hooks w quantity units.component true true
    else
      let w ← executeExternalPositionHooks module hooks w quantity units.component false true
      let w ← Invoke.invokeTransfer w module units.component recipient
        (transfers.paidOut units.equity)
      validateCollateralizationPostTransferOut w units.component finalSetSupply
      pure w
  else pure w

def resolveEquityPositions (w : IssuanceWorld χ) (sender recipient : Address) (quantity : Nat)
    (isIssue : Bool) (initialSetSupply finalSetSupply : Nat) (units : List IssuanceUnits) :
    Result (IssuanceWorld χ) :=
  runs (resolveEquityPosition module hooks transfers sender recipient quantity isIssue
    initialSetSupply finalSetSupply) w units

/-- The issuance of the second version, with these transfers. -/
def issueWith (managerHooks : Address → PreIssueHook (IssuanceState χ)) (w : IssuanceWorld χ)
    (sender : Address) (quantity : Nat) (recipient : Address) : Result (IssuanceWorld χ) := do
  validateOnlyValidAndInitializedSet w.setToken module
  require (0 < quantity) "Issue quantity must be > 0"
  callManagerPreIssueHooks managerHooks w quantity sender recipient
  let w ← callModulePreIssueHooks module hooks w quantity
  let initialSetSupply := w.setToken.totalSupply
  let (quantityWithFees, managerFee, protocolFee) ←
    calculateTotalFees module w.setToken w.rest.issuanceSettings quantity true
  let units ← calculateRequiredComponentIssuanceUnits w.setToken quantityWithFees true
  let finalSetSupply ← SafeMath.add initialSetSupply quantityWithFees
  let w ← resolveEquityPositions module hooks transfers w sender recipient quantityWithFees true
    initialSetSupply finalSetSupply units
  let w ← resolveDebtPositions module hooks w sender quantityWithFees true initialSetSupply
    finalSetSupply units
  let w ← resolveFees module w managerFee protocolFee
  w.callSetToken (·.mint module recipient quantity)

/-- The redemption of the second version once the hooks before it were called, with these
transfers. -/
def redeemResolvedWith (w : IssuanceWorld χ) (sender : Address) (quantity : Nat)
    (recipient : Address) : Result (IssuanceWorld χ) := do
  let initialSetSupply := w.setToken.totalSupply
  let w ← w.callSetToken (·.burn module sender quantity)
  let (quantityNetFees, managerFee, protocolFee) ←
    calculateTotalFees module w.setToken w.rest.issuanceSettings quantity false
  let units ← calculateRequiredComponentIssuanceUnits w.setToken quantityNetFees false
  let finalSetSupply ← SafeMath.sub initialSetSupply quantityNetFees
  let w ← resolveDebtPositions module hooks w sender quantityNetFees false initialSetSupply
    finalSetSupply units
  let w ← resolveEquityPositions module hooks transfers w sender recipient quantityNetFees false
    initialSetSupply finalSetSupply units
  resolveFees module w managerFee protocolFee

def redeemWith (w : IssuanceWorld χ) (sender : Address) (quantity : Nat) (recipient : Address) :
    Result (IssuanceWorld χ) := do
  validateOnlyValidAndInitializedSet w.setToken module
  require (0 < quantity) "Redeem quantity must be > 0"
  let w ← callModulePreRedeemHooks module hooks w quantity
  redeemResolvedWith module hooks transfers w sender quantity recipient

end Transfers

/-! ### The module -/

def issue (managerHooks : Address → PreIssueHook (IssuanceState χ)) (w : IssuanceWorld χ)
    (sender : Address) (quantity : Nat) (recipient : Address) : Result (IssuanceWorld χ) :=
  issueWith module hooks (buffered tokenTransferBuffer) managerHooks w sender quantity recipient

def redeem (w : IssuanceWorld χ) (sender : Address) (quantity : Nat) (recipient : Address) :
    Result (IssuanceWorld χ) :=
  redeemWith module hooks (buffered tokenTransferBuffer) w sender quantity recipient

def getRequiredComponentIssuanceUnits (w : IssuanceWorld χ) (quantity : Nat) :
    Result (List IssuanceUnits) := do
  let units ← DebtIssuanceModuleV2.getRequiredComponentIssuanceUnits module w quantity
  pure (units.map fun a =>
    if 0 < a.equity then { a with equity := (a.equity + tokenTransferBuffer) % uintBound } else a)

/-- What a redemption owes, before the buffer. -/
def owedOnRedemption (w : IssuanceWorld χ) (quantity : Nat) : Result (List IssuanceUnits) := do
  let (totalQuantity, _, _) ←
    calculateTotalFees module w.setToken w.rest.issuanceSettings quantity false
  calculateRequiredComponentIssuanceUnits w.setToken totalQuantity false

def getRequiredComponentRedemptionUnits (w : IssuanceWorld χ) (quantity : Nat) :
    Result (List IssuanceUnits) := do
  let units ← owedOnRedemption module w quantity
  pure (units.map fun a => { a with equity := quotedEquity tokenTransferBuffer a.equity })

/-! ### The quote against the redemption -/

/-- The quote, as what a redemption would transfer. -/
def asQuoted : EquityTransfers where
  collected quantity := (quantity + tokenTransferBuffer) % uintBound
  paidOut quantity := quotedEquity tokenTransferBuffer quantity

/-- What goes to the redeemer: nothing is transferred where nothing is owed. -/
def paidUnits (transfers : EquityTransfers) (owed : List IssuanceUnits) : List IssuanceUnits :=
  owed.map fun a => if 0 < a.equity then { a with equity := transfers.paidOut a.equity } else a

section Buffer
variable {tokenTransferBuffer}

theorem buffered_paidOut_of_le {equity : Nat} (hequity : equity < uintBound)
    (hle : tokenTransferBuffer ≤ equity) :
    (buffered tokenTransferBuffer).paidOut equity = quotedEquity tokenTransferBuffer equity := by
  show (equity + uintBound - tokenTransferBuffer) % uintBound = _
  have hsplit : equity + uintBound - tokenTransferBuffer =
      equity - tokenTransferBuffer + uintBound := by omega
  rw [hsplit, Nat.add_mod_right, Nat.mod_eq_of_lt (by omega), quotedEquity]
  split <;> omega

/-- Below the buffer the difference wraps around. -/
theorem buffered_paidOut_of_lt {equity : Nat} (hbuffer : tokenTransferBuffer < uintBound)
    (hlt : equity < tokenTransferBuffer) :
    (buffered tokenTransferBuffer).paidOut equity = equity + uintBound - tokenTransferBuffer :=
  Nat.mod_eq_of_lt (by omega)

theorem quotedEquity_of_le {equity : Nat} (hle : equity ≤ tokenTransferBuffer) :
    quotedEquity tokenTransferBuffer equity = 0 := if_neg (by omega)

theorem buffered_paidOut_iff {equity : Nat} (hbuffer : tokenTransferBuffer < uintBound)
    (hequity : equity < uintBound) :
    (buffered tokenTransferBuffer).paidOut equity = quotedEquity tokenTransferBuffer equity ↔
      tokenTransferBuffer ≤ equity := by
  refine ⟨fun heq => ?_, buffered_paidOut_of_le hequity⟩
  by_contra hlt
  rw [buffered_paidOut_of_lt hbuffer (by omega), quotedEquity_of_le (by omega)] at heq
  omega

end Buffer

/-- Amounts that are owed are machine integers. -/
theorem owed_lt {s : SetToken} {quantity : Nat} {owed : List IssuanceUnits}
    (h : calculateRequiredComponentIssuanceUnits s quantity false = .ok owed) :
    ∀ a ∈ owed, a.equity < uintBound := by
  intro a ha
  obtain ⟨total, _, hrequired⟩ := (DebtIssuanceModule.required_eq_ok h).2 a ha
  simp only [DebtIssuanceModule.requiredUnits, Bool.false_eq_true, if_false, bind_eq_ok,
    preciseMul_eq_ok, pure_eq_ok] at hrequired
  obtain ⟨_, ⟨hbound, rfl⟩, _, _, rfl⟩ := hrequired
  exact (Nat.div_le_self _ _).trans_lt hbound

variable {module tokenTransferBuffer} {hooks} {w u : IssuanceWorld χ} {sender recipient : Address}
  {quantity : Nat} {owed : List IssuanceUnits} {transfers transfers' : EquityTransfers}

/-- What is paid is the quote exactly where no amount is in the reach of the buffer. -/
theorem paid_eq_quoted_iff (hbuffer : tokenTransferBuffer < uintBound)
    (howed : ∀ a ∈ owed, a.equity < uintBound) :
    paidUnits (buffered tokenTransferBuffer) owed = paidUnits (asQuoted tokenTransferBuffer) owed ↔
      ∀ a ∈ owed, a.equity = 0 ∨ tokenTransferBuffer ≤ a.equity := by
  rw [paidUnits, paidUnits, List.map_inj_left]
  refine forall₂_congr fun a ha => ?_
  by_cases hpos : 0 < a.equity
  · rw [if_pos hpos, if_pos hpos, IssuanceUnits.mk.injEq]
    have hiff := buffered_paidOut_iff hbuffer (howed a ha)
    exact ⟨fun h => .inr (hiff.mp h.2.1), fun h => ⟨rfl, hiff.mpr (h.resolve_left hpos.ne'), rfl⟩⟩
  · rw [if_neg hpos, if_neg hpos]
    exact iff_of_true rfl (.inl (by omega))

theorem paid_asQuoted :
    paidUnits (asQuoted tokenTransferBuffer) owed =
      owed.map fun a => { a with equity := quotedEquity tokenTransferBuffer a.equity } := by
  refine List.map_congr_left fun a _ => ?_
  by_cases hpos : 0 < a.equity
  · rw [if_pos hpos]
    rfl
  · rw [if_neg hpos, quotedEquity_of_le (by omega), show 0 = a.equity by omega]

/-- Only what is paid matters to a redemption. -/
theorem resolveEquityPositions_congr {total initial final : Nat}
    (hpaid : paidUnits transfers owed = paidUnits transfers' owed) :
    resolveEquityPositions module hooks transfers w sender recipient total false initial final owed =
      resolveEquityPositions module hooks transfers' w sender recipient total false initial final
        owed := by
  rw [paidUnits, paidUnits, List.map_inj_left] at hpaid
  refine runs_congr _ fun w a ha => ?_
  have ha := hpaid a ha
  by_cases hpos : 0 < a.equity
  · rw [if_pos hpos, if_pos hpos, IssuanceUnits.mk.injEq] at ha
    simp only [resolveEquityPosition, if_pos hpos, ha.2.1, Bool.false_eq_true, if_false]
  · simp only [resolveEquityPosition, if_neg hpos]

theorem owedOnRedemption_of_kept (h : UnitsKept w u) :
    owedOnRedemption module u quantity = owedOnRedemption module w quantity := by
  rw [owedOnRedemption, owedOnRedemption, h.calculateTotalFees]
  simp only [DebtIssuanceModule.calculateRequired_of_same h.positions]

theorem burn_kept {b : IssuanceWorld χ} (h : w.callSetToken (·.burn module sender quantity) = .ok b) :
    UnitsKept w b := by
  obtain ⟨s, hs, rfl⟩ := World.callSetToken_eq_ok.mp h
  exact ⟨SetToken.burn_same hs, (SetToken.burn_credited hs).2, rfl⟩

theorem redeemResolvedWith_congr (howed : owedOnRedemption module w quantity = .ok owed)
    (hpaid : paidUnits transfers owed = paidUnits transfers' owed) :
    redeemResolvedWith module hooks transfers w sender quantity recipient =
      redeemResolvedWith module hooks transfers' w sender quantity recipient := by
  rw [redeemResolvedWith, redeemResolvedWith]
  cases hburn : w.callSetToken (·.burn module sender quantity) with
  | error reason => exact Eq.refl (Except.error reason)
  | ok b =>
    rw [← owedOnRedemption_of_kept (burn_kept hburn), owedOnRedemption, bind_eq_ok] at howed
    obtain ⟨⟨total, managerFee, protocolFee⟩, hfees, hunits⟩ := howed
    simp only [ok_bind, hfees, hunits, resolveEquityPositions_congr hpaid]

/-- Transfers that pay the same for what is owed make the same redemption. -/
theorem redeemWith_congr (hpre : callModulePreRedeemHooks module hooks w quantity = .ok u)
    (howed : owedOnRedemption module u quantity = .ok owed)
    (hpaid : paidUnits transfers owed = paidUnits transfers' owed) :
    redeemWith module hooks transfers w sender quantity recipient =
      redeemWith module hooks transfers' w sender quantity recipient := by
  rw [redeemWith, redeemWith, hpre]
  simp only [ok_bind, redeemResolvedWith_congr howed hpaid]

theorem resolveEquityPositions_plain {total initial final : Nat} {units : List IssuanceUnits} :
    resolveEquityPositions module hooks ⟨id, id⟩ w sender recipient total false initial final units =
      DebtIssuanceModuleV2.resolveEquityPositions module hooks w sender recipient total false initial
        final units := rfl

/-- With no buffer, redeeming is that of the second version. -/
theorem redeem_without_buffer (hpre : callModulePreRedeemHooks module hooks w quantity = .ok u)
    (howed : owedOnRedemption module u quantity = .ok owed) :
    redeem module 0 hooks w sender quantity recipient =
      DebtIssuanceModuleV2.redeem module hooks w sender quantity recipient := by
  have hbound : ∀ a ∈ owed, a.equity < uintBound := by
    obtain ⟨_, _, hunits⟩ := bind_eq_ok.mp howed
    exact owed_lt hunits
  have hpaid : paidUnits (buffered 0) owed = paidUnits ⟨id, id⟩ owed := by
    refine List.map_congr_left fun a ha => ?_
    show (if 0 < a.equity then
      { a with equity := (a.equity + uintBound - 0) % uintBound } else a) = _
    rw [Nat.sub_zero, Nat.add_mod_right, Nat.mod_eq_of_lt (hbound a ha)]
    rfl
  rw [redeem, redeemWith_congr hpre howed hpaid]
  simp only [redeemWith, redeemResolvedWith, resolveEquityPositions_plain, DebtIssuanceModuleV2.redeem,
    DebtIssuanceModuleV2.redeemResolved]

/-- **A redemption against its quote.** Let the quote be asked in a state with the units and the fees
of the one that the modules' calls before the redemption leave, and let a redemption that pays the
quoted amounts return. Then the redemption returns as well and pays them exactly where nothing that
is owed lies above zero and below the buffer. -/
theorem redeem_pays_quote_iff {v asked : IssuanceWorld χ} {quoted : List IssuanceUnits}
    (hbuffer : tokenTransferBuffer < uintBound)
    (hpre : callModulePreRedeemHooks module hooks w quantity = .ok u) (hkept : UnitsKept asked u)
    (howed : owedOnRedemption module asked quantity = .ok owed)
    (hquoted : getRequiredComponentRedemptionUnits module tokenTransferBuffer asked quantity =
      .ok quoted)
    (hpays : redeemWith module hooks (asQuoted tokenTransferBuffer) w sender quantity recipient =
      .ok v) :
    (redeem module tokenTransferBuffer hooks w sender quantity recipient = .ok v ∧
        paidUnits (buffered tokenTransferBuffer) owed = quoted) ↔
      ∀ a ∈ owed, a.equity = 0 ∨ tokenTransferBuffer ≤ a.equity := by
  have hbound : ∀ a ∈ owed, a.equity < uintBound := by
    obtain ⟨_, _, hunits⟩ := bind_eq_ok.mp howed
    exact owed_lt hunits
  have hquote : paidUnits (asQuoted tokenTransferBuffer) owed = quoted := by
    rw [getRequiredComponentRedemptionUnits, howed, ok_bind, pure_eq_ok] at hquoted
    rw [paid_asQuoted, hquoted]
  rw [← paid_eq_quoted_iff hbuffer hbound, hquote]
  rw [← owedOnRedemption_of_kept hkept] at howed
  refine ⟨And.right, fun hpaid => ⟨?_, hpaid⟩⟩
  rw [redeem, redeemWith_congr hpre howed (hpaid.trans hquote.symm)]
  exact hpays

/-! One component of one unit each: of 500 shares the buffer of 10 is kept, of 5 it cannot be. -/

def exampleIssued : Result (IssuanceWorld Unit) := do
  let w ← IssuanceVersion.exampleWorld (3 * 10 ^ 17)
  issue 10 10 IssuanceVersion.exampleHooks (fun _ _ _ _ _ => pure ()) w 5 1000 5

theorem exampleHooks_preRedeem {w u : IssuanceWorld Unit}
    (h : callModulePreRedeemHooks 10 IssuanceVersion.exampleHooks w quantity = .ok u) : u = w := by
  refine runs_invariant (fun v => v = w) (fun a m b ha hb => ?_) rfl h
  have hpure : (pure a : Result (IssuanceWorld Unit)) = .ok b := hb
  exact (pure_eq_ok.mp hpure).symm.trans ha

theorem redeem_pays_quote_example : ∃ w v owed, exampleIssued = .ok w ∧
    owedOnRedemption 10 w 500 = .ok owed ∧
    redeem 10 10 IssuanceVersion.exampleHooks w 5 500 5 = .ok v ∧
    paidUnits (buffered 10) owed = [⟨1, 485, 0⟩] := by
  have h : (do
      let w ← exampleIssued
      let owed ← owedOnRedemption 10 w 500
      let quoted ← getRequiredComponentRedemptionUnits 10 10 w 500
      let _ ← redeemWith 10 IssuanceVersion.exampleHooks (asQuoted 10) w 5 500 5
      require (owed = ([⟨1, 495, 0⟩] : List IssuanceUnits) ∧
        quoted = ([⟨1, 485, 0⟩] : List IssuanceUnits)) "") = .ok () := by
    decide +kernel
  simp only [bind_eq_ok, require_eq_ok] at h
  obtain ⟨w, hw, owed, howed, quoted, hquoted, v, hv, rfl, rfl⟩ := h
  obtain ⟨_, _, _, _, u, hpre, _⟩ := by simpa only [redeemWith, bind_eq_ok] using hv
  obtain rfl := exampleHooks_preRedeem hpre
  refine ⟨u, v, _, hw, howed, ?_⟩
  refine (redeem_pays_quote_iff (by decide) hpre ⟨.refl _, rfl, rfl⟩ howed hquoted hv).mpr ?_
  intro a ha
  rw [List.mem_singleton] at ha
  rw [ha]
  exact .inr (by decide)

/-- Five are owed, none are quoted, and the redemption reverts. -/
theorem redeem_below_buffer_reverts : ∃ w v, exampleIssued = .ok w ∧
    owedOnRedemption 10 w 5 = .ok [⟨1, 5, 0⟩] ∧
    getRequiredComponentRedemptionUnits 10 10 w 5 = .ok [⟨1, 0, 0⟩] ∧
    redeemWith 10 IssuanceVersion.exampleHooks (asQuoted 10) w 5 5 5 = .ok v ∧
    redeem 10 10 IssuanceVersion.exampleHooks w 5 5 5 =
      .error "ERC20: transfer amount exceeds balance" := by
  have h : (do
      let w ← exampleIssued
      let owed ← owedOnRedemption 10 w 5
      let quoted ← getRequiredComponentRedemptionUnits 10 10 w 5
      let _ ← redeemWith 10 IssuanceVersion.exampleHooks (asQuoted 10) w 5 5 5
      require (owed = ([⟨1, 5, 0⟩] : List IssuanceUnits) ∧
        quoted = ([⟨1, 0, 0⟩] : List IssuanceUnits)) "") = .ok () := by
    decide +kernel
  simp only [bind_eq_ok, require_eq_ok] at h
  obtain ⟨w, hw, owed, howed, quoted, hquoted, v, hv, rfl, rfl⟩ := h
  refine ⟨w, v, hw, howed, hquoted, hv, ?_⟩
  have hreverts : (do
      let w ← exampleIssued
      let _ ← redeem 10 10 IssuanceVersion.exampleHooks w 5 5 5
      pure ()) = .error "ERC20: transfer amount exceeds balance" := by
    decide +kernel
  rw [hw, ok_bind] at hreverts
  cases hr : redeem 10 10 IssuanceVersion.exampleHooks w 5 5 5 with
  | error reason =>
    rw [hr] at hreverts
    exact congrArg _ (Except.error.inj hreverts)
  | ok v =>
    rw [hr] at hreverts
    cases hreverts

end DebtIssuanceModuleV3

end IndexProtocol
