import IndexProtocol.Issuance.Debt

/-! The DebtIssuanceModuleV2: issue and redeem with looser checks of transfers.

It asks after each transfer that the SetToken holds what its default units are
worth, where the first version asks for the exact balance. Units, fees, hooks
and the order of the calls are those of the first version. -/
namespace IndexProtocol
open Evm PreciseUnitMath ModuleBase

namespace SafeERC20
variable {χ : Type}

/-- Transfers in the name of `caller`, without a look at what arrives. -/
def safeTransferFrom (w : World χ) (caller token sender recipient : Address) (quantity : Nat) :
    Result (World χ) :=
  w.callToken token (·.transferFrom caller sender recipient quantity)

end SafeERC20

namespace IssuanceValidationUtils
variable {χ : Type} (w : World χ) (component : Address)

/-- Called after the transfer and before the hooks. -/
def validateCollateralizationPostTransferInPreHook (initialSetSupply componentQuantity : Nat) :
    Result Unit := do
  let unit ← w.setToken.getDefaultPositionRealUnit component
  let defaultPositionUnit ← SafeCast.toUint256 unit
  let backing ← preciseMulCeil initialSetSupply defaultPositionUnit
  let expected ← SafeMath.add backing componentQuantity
  require (expected ≤ w.balance component) "Invalid transfer in. Results in undercollateralization"

def validateCollateralizationPostTransferOut (finalSetSupply : Nat) : Result Unit := do
  let unit ← w.setToken.getDefaultPositionRealUnit component
  let defaultPositionUnit ← SafeCast.toUint256 unit
  let backing ← preciseMulCeil finalSetSupply defaultPositionUnit
  require (backing ≤ w.balance component) "Invalid transfer out. Results in undercollateralization"

end IssuanceValidationUtils

namespace DebtIssuanceModuleV2
open DebtIssuanceModule (callManagerPreIssueHooks callModulePreIssueHooks callModulePreRedeemHooks
  calculateTotalFees calculateRequiredComponentIssuanceUnits executeExternalPositionHooks resolveFees)
open IssuanceValidationUtils

variable {χ : Type} (module : Address) (hooks : Address → ModuleIssuanceHook χ)

def resolveEquityPosition (sender recipient : Address) (quantity : Nat) (isIssue : Bool)
    (initialSetSupply finalSetSupply : Nat) (w : IssuanceWorld χ) (units : IssuanceUnits) :
    Result (IssuanceWorld χ) := do
  if 0 < units.equity then
    if isIssue then
      let w ← SafeERC20.safeTransferFrom w module units.component sender w.setToken.self units.equity
      validateCollateralizationPostTransferInPreHook w units.component initialSetSupply units.equity
      executeExternalPositionHooks module hooks w quantity units.component true true
    else
      let w ← executeExternalPositionHooks module hooks w quantity units.component false true
      let w ← Invoke.invokeTransfer w module units.component recipient units.equity
      validateCollateralizationPostTransferOut w units.component finalSetSupply
      pure w
  else pure w

def resolveDebtPosition (sender : Address) (quantity : Nat) (isIssue : Bool)
    (initialSetSupply finalSetSupply : Nat) (w : IssuanceWorld χ) (units : IssuanceUnits) :
    Result (IssuanceWorld χ) := do
  if 0 < units.debt then
    if isIssue then
      let w ← executeExternalPositionHooks module hooks w quantity units.component true false
      let w ← Invoke.invokeTransfer w module units.component sender units.debt
      validateCollateralizationPostTransferOut w units.component finalSetSupply
      pure w
    else
      let w ← SafeERC20.safeTransferFrom w module units.component sender w.setToken.self units.debt
      validateCollateralizationPostTransferInPreHook w units.component initialSetSupply units.debt
      executeExternalPositionHooks module hooks w quantity units.component false false
  else pure w

def resolveEquityPositions (w : IssuanceWorld χ) (sender recipient : Address) (quantity : Nat)
    (isIssue : Bool) (initialSetSupply finalSetSupply : Nat) (units : List IssuanceUnits) :
    Result (IssuanceWorld χ) :=
  runs (resolveEquityPosition module hooks sender recipient quantity isIssue initialSetSupply
    finalSetSupply) w units

def resolveDebtPositions (w : IssuanceWorld χ) (sender : Address) (quantity : Nat) (isIssue : Bool)
    (initialSetSupply finalSetSupply : Nat) (units : List IssuanceUnits) :
    Result (IssuanceWorld χ) :=
  runs (resolveDebtPosition module hooks sender quantity isIssue initialSetSupply finalSetSupply) w
    units

/-- What `issue` does once the hooks before it were called. -/
def issueResolved (w : IssuanceWorld χ) (sender : Address) (quantity : Nat) (recipient : Address) :
    Result (IssuanceWorld χ) := do
  let initialSetSupply := w.setToken.totalSupply
  let (quantityWithFees, managerFee, protocolFee) ←
    calculateTotalFees module w.setToken w.rest.issuanceSettings quantity true
  let units ← calculateRequiredComponentIssuanceUnits w.setToken quantityWithFees true
  let finalSetSupply ← SafeMath.add initialSetSupply quantityWithFees
  let w ← resolveEquityPositions module hooks w sender recipient quantityWithFees true
    initialSetSupply finalSetSupply units
  let w ← resolveDebtPositions module hooks w sender quantityWithFees true initialSetSupply
    finalSetSupply units
  let w ← resolveFees module w managerFee protocolFee
  w.callSetToken (·.mint module recipient quantity)

def issue (managerHooks : Address → PreIssueHook (IssuanceState χ)) (w : IssuanceWorld χ)
    (sender : Address) (quantity : Nat) (recipient : Address) : Result (IssuanceWorld χ) := do
  validateOnlyValidAndInitializedSet w.setToken module
  require (0 < quantity) "Issue quantity must be > 0"
  callManagerPreIssueHooks managerHooks w quantity sender recipient
  let w ← callModulePreIssueHooks module hooks w quantity
  issueResolved module hooks w sender quantity recipient

/-- What `redeem` does once the hooks before it were called. -/
def redeemResolved (w : IssuanceWorld χ) (sender : Address) (quantity : Nat) (recipient : Address) :
    Result (IssuanceWorld χ) := do
  let initialSetSupply := w.setToken.totalSupply
  let w ← w.callSetToken (·.burn module sender quantity)
  let (quantityNetFees, managerFee, protocolFee) ←
    calculateTotalFees module w.setToken w.rest.issuanceSettings quantity false
  let units ← calculateRequiredComponentIssuanceUnits w.setToken quantityNetFees false
  let finalSetSupply ← SafeMath.sub initialSetSupply quantityNetFees
  let w ← resolveDebtPositions module hooks w sender quantityNetFees false initialSetSupply
    finalSetSupply units
  let w ← resolveEquityPositions module hooks w sender recipient quantityNetFees false
    initialSetSupply finalSetSupply units
  resolveFees module w managerFee protocolFee

def redeem (w : IssuanceWorld χ) (sender : Address) (quantity : Nat) (recipient : Address) :
    Result (IssuanceWorld χ) := do
  validateOnlyValidAndInitializedSet w.setToken module
  require (0 < quantity) "Redeem quantity must be > 0"
  let w ← callModulePreRedeemHooks module hooks w quantity
  redeemResolved module hooks w sender quantity recipient

end DebtIssuanceModuleV2

end IndexProtocol
