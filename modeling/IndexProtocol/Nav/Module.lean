import IndexProtocol.ModuleBase

/-! The CustomOracleNavIssuanceModule: issue and redeem against one asset.

Shares are sold for a reserve asset and bought back for it, at the value that a
valuer gives the SetToken. Only the position in the reserve asset changes; the
others are diluted or concentrated by the position multiplier. Valuer, oracles and
hooks are other contracts: a valuation may be any number, and as far as this module
goes a hook may stop the call. -/
namespace IndexProtocol
open Evm PreciseUnitMath ModuleBase

structure NavIssuanceSettings where
  managerIssuanceHook : Address
  managerRedemptionHook : Address
  /-- The default one where it is the zero address. -/
  setValuer : Address
  feeRecipient : Address
  /-- Of issuing and of redeeming. -/
  managerFees : Fin 2 → Nat
  premiumPercentage : Nat
  minSetTokenSupply : Nat

/-- The state of the module for the SetToken, and that of other contracts. -/
structure NavState (χ : Type) where
  settings : NavIssuanceSettings
  isReserveAsset : Address → Bool
  others : χ

abbrev NavWorld (χ : Type) := World (NavState χ)

/-- What is read from other contracts. -/
structure NavOracles (χ : Type) where
  defaultSetValuer : Address
  /-- What the valuer at an address returns, in a quote asset. -/
  calculateSetTokenValuation : Address → NavWorld χ → Address → Result Nat
  decimals : Address → Nat

/-- The two entry points of a hook. -/
structure NavIssuanceHook (χ : Type) where
  invokePreIssueHook : NavWorld χ → Address → Nat → Address → Address → Result Unit
  invokePreRedeemHook : NavWorld χ → Nat → Address → Address → Result Unit

namespace CustomOracleNavIssuanceModule
variable {χ : Type}

structure ActionInfo where
  preFeeReserveQuantity : Nat
  protocolFees : Nat
  managerFee : Nat
  /-- What goes to the SetToken, or to the redeemer. -/
  netFlowQuantity : Nat
  setTokenQuantity : Nat
  previousSetTokenSupply : Nat
  newSetTokenSupply : Nat
  newPositionMultiplier : Int
  newReservePositionUnit : Nat
  deriving DecidableEq, Repr

def maxPositionMultiplier : Int := 10 ^ 20

def managerIssueFeeIndex : Fin 2 := 0

def managerRedeemFeeIndex : Fin 2 := 1

def protocolIssueManagerRevenueShareFeeIndex : Nat := 0

def protocolRedeemManagerRevenueShareFeeIndex : Nat := 1

def protocolIssueDirectFeeIndex : Nat := 2

def protocolRedeemDirectFeeIndex : Nat := 3

/-! ### Fees and valuations -/

section Views
variable (module : Address) (oracles : NavOracles χ) (w : NavWorld χ) (reserveAsset : Address)

/-- The protocol's percentage and the manager's. -/
def getProtocolAndManagerFeePercentages (protocolManagerFeeIndex protocolDirectFeeIndex : Nat)
    (managerFeeIndex : Fin 2) : Result (Nat × Nat) := do
  let protocolDirectFeePercent := w.setToken.controller.fees module protocolDirectFeeIndex
  let protocolManagerShareFeePercent := w.setToken.controller.fees module protocolManagerFeeIndex
  let managerFeePercent := w.rest.settings.managerFees managerFeeIndex
  let protocolRevenueSharePercentage ← preciseMul protocolManagerShareFeePercent managerFeePercent
  let managerRevenueSharePercentage ← SafeMath.sub managerFeePercent protocolRevenueSharePercentage
  let totalProtocolFeePercentage ←
    SafeMath.add protocolRevenueSharePercentage protocolDirectFeePercent
  pure (totalProtocolFeePercentage, managerRevenueSharePercentage)

/-- The protocol's fee, the manager's, and what is left. -/
def getFees (reserveAssetQuantity protocolManagerFeeIndex protocolDirectFeeIndex : Nat)
    (managerFeeIndex : Fin 2) : Result (Nat × Nat × Nat) := do
  let (protocolFeePercentage, managerFeePercentage) ← getProtocolAndManagerFeePercentages module w
    protocolManagerFeeIndex protocolDirectFeeIndex managerFeeIndex
  let protocolFees ← preciseMul protocolFeePercentage reserveAssetQuantity
  let managerFee ← preciseMul managerFeePercentage reserveAssetQuantity
  let rest ← SafeMath.sub reserveAssetQuantity protocolFees
  let netReserveFlow ← SafeMath.sub rest managerFee
  pure (protocolFees, managerFee, netReserveFlow)

def getSetValuer : Address :=
  let customValuer := w.rest.settings.setValuer
  if customValuer = 0 then oracles.defaultSetValuer else customValuer

def setTokenValuation : Result Nat :=
  oracles.calculateSetTokenValuation (getSetValuer oracles w) w reserveAsset

/-- One whole token; the power is not checked. -/
def reserveAssetUnit : Nat := 10 ^ oracles.decimals reserveAsset % uintBound

/-- The shares for a net flow, at the value of those there are. -/
def getSetTokenMintQuantity (netReserveFlows setTotalSupply : Nat) : Result Nat := do
  let premiumValue ← preciseMul netReserveFlows w.rest.settings.premiumPercentage
  let valuation ← setTokenValuation oracles w reserveAsset
  let unit := reserveAssetUnit oracles reserveAsset
  let normalizedNetFees ← preciseDiv netReserveFlows unit
  let netFeesAndPremium ← SafeMath.sub netReserveFlows premiumValue
  let normalizedNetFeesAndPremium ← preciseDiv netFeesAndPremium unit
  let totalValue ← preciseMul setTotalSupply valuation
  let sum ← SafeMath.add totalValue normalizedNetFees
  let denominator ← SafeMath.sub sum normalizedNetFeesAndPremium
  let product ← preciseMul normalizedNetFeesAndPremium setTotalSupply
  preciseDiv product denominator

/-- The reserve asset for shares, less the premium. -/
def getRedeemReserveQuantity (setTokenQuantity : Nat) : Result Nat := do
  let valuation ← setTokenValuation oracles w reserveAsset
  let totalRedeemValue ← preciseMul setTokenQuantity valuation
  let prePremiumReserveQuantity ←
    preciseMul totalRedeemValue (reserveAssetUnit oracles reserveAsset)
  let premiumQuantity ←
    preciseMulCeil prePremiumReserveQuantity w.rest.settings.premiumPercentage
  SafeMath.sub prePremiumReserveQuantity premiumQuantity

/-- The multiplier for a changed supply, rounded toward zero. -/
def scaledMultiplier (s : SetToken) (previousSetTokenSupply newSetTokenSupply : Nat) :
    Result Int := do
  let previous ← SafeCast.toInt256 previousSetTokenSupply
  let product ← SignedSafeMath.mul s.positionMultiplier previous
  let new ← SafeCast.toInt256 newSetTokenSupply
  SignedSafeMath.div product new

def getIssuePositionMultiplier (setTokenQuantity previousSetTokenSupply : Nat) :
    Result (Nat × Int) := do
  let newSetTokenSupply ← SafeMath.add setTokenQuantity previousSetTokenSupply
  let newPositionMultiplier ← scaledMultiplier w.setToken previousSetTokenSupply newSetTokenSupply
  pure (newSetTokenSupply, newPositionMultiplier)

def getRedeemPositionMultiplier (setTokenQuantity previousSetTokenSupply : Nat) :
    Result (Nat × Int) := do
  let newSetTokenSupply ← SafeMath.sub previousSetTokenSupply setTokenQuantity
  let newPositionMultiplier ← scaledMultiplier w.setToken previousSetTokenSupply newSetTokenSupply
  require (newPositionMultiplier ≤ maxPositionMultiplier)
    "New position multiplier must not exceed max"
  pure (newSetTokenSupply, newPositionMultiplier)

/-- What the default unit of the reserve asset adds up to. -/
def existingReserve (previousSetTokenSupply : Nat) : Result Nat := do
  let unit ← w.setToken.getDefaultPositionRealUnit reserveAsset
  let existingUnit ← SafeCast.toUint256 unit
  preciseMul existingUnit previousSetTokenSupply

def getIssuePositionUnit (previousSetTokenSupply netFlowQuantity newSetTokenSupply : Nat) :
    Result Nat := do
  let existing ← existingReserve w reserveAsset previousSetTokenSupply
  let totalReserve ← SafeMath.add existing netFlowQuantity
  preciseDiv totalReserve newSetTokenSupply

def getRedeemPositionUnit (previousSetTokenSupply netFlowQuantity protocolFees managerFee
    newSetTokenSupply : Nat) : Result Nat := do
  let totalExistingUnits ← existingReserve w reserveAsset previousSetTokenSupply
  let net ← SafeMath.add netFlowQuantity protocolFees
  let outflow ← SafeMath.add net managerFee
  require (outflow ≤ totalExistingUnits) "Must be greater than total available collateral"
  let left ← SafeMath.sub totalExistingUnits outflow
  preciseDiv left newSetTokenSupply

def createIssuanceInfo (reserveAssetQuantity : Nat) : Result ActionInfo := do
  let previousSetTokenSupply := w.setToken.totalSupply
  let (protocolFees, managerFee, netFlowQuantity) ← getFees module w reserveAssetQuantity
    protocolIssueManagerRevenueShareFeeIndex protocolIssueDirectFeeIndex managerIssueFeeIndex
  let setTokenQuantity ←
    getSetTokenMintQuantity oracles w reserveAsset netFlowQuantity previousSetTokenSupply
  let (newSetTokenSupply, newPositionMultiplier) ←
    getIssuePositionMultiplier w setTokenQuantity previousSetTokenSupply
  let newReservePositionUnit ← getIssuePositionUnit w reserveAsset previousSetTokenSupply
    netFlowQuantity newSetTokenSupply
  pure ⟨reserveAssetQuantity, protocolFees, managerFee, netFlowQuantity, setTokenQuantity,
    previousSetTokenSupply, newSetTokenSupply, newPositionMultiplier, newReservePositionUnit⟩

def createRedemptionInfo (setTokenQuantity : Nat) : Result ActionInfo := do
  let preFeeReserveQuantity ← getRedeemReserveQuantity oracles w reserveAsset setTokenQuantity
  let (protocolFees, managerFee, netFlowQuantity) ← getFees module w preFeeReserveQuantity
    protocolRedeemManagerRevenueShareFeeIndex protocolRedeemDirectFeeIndex managerRedeemFeeIndex
  let previousSetTokenSupply := w.setToken.totalSupply
  let (newSetTokenSupply, newPositionMultiplier) ←
    getRedeemPositionMultiplier w setTokenQuantity previousSetTokenSupply
  let newReservePositionUnit ← getRedeemPositionUnit w reserveAsset previousSetTokenSupply
    netFlowQuantity protocolFees managerFee newSetTokenSupply
  pure ⟨preFeeReserveQuantity, protocolFees, managerFee, netFlowQuantity, setTokenQuantity,
    previousSetTokenSupply, newSetTokenSupply, newPositionMultiplier, newReservePositionUnit⟩

def validateCommon (quantity : Nat) : Result Unit := do
  require (0 < quantity) "Quantity must be > 0"
  require (w.rest.isReserveAsset reserveAsset = true) "Must be valid reserve asset"

def validateIssuanceInfo (minSetTokenReceiveQuantity : Nat) (issueInfo : ActionInfo) :
    Result Unit := do
  require (w.rest.settings.minSetTokenSupply ≤ issueInfo.previousSetTokenSupply)
    "Supply must be greater than minimum to enable issuance"
  require (minSetTokenReceiveQuantity ≤ issueInfo.setTokenQuantity)
    "Must be greater than min SetToken"

def validateRedemptionInfo (minReserveReceiveQuantity : Nat) (redeemInfo : ActionInfo) :
    Result Unit := do
  require (w.rest.settings.minSetTokenSupply ≤ redeemInfo.newSetTokenSupply)
    "Supply must be greater than minimum to enable redemption"
  require (minReserveReceiveQuantity ≤ redeemInfo.netFlowQuantity)
    "Must be greater than min receive reserve quantity"

end Views

/-! ### Issue and redeem -/

section Calls
variable (module : Address) (oracles : NavOracles χ) (hooks : Address → NavIssuanceHook χ)
  (w : NavWorld χ)

def callPreIssueHooks (reserveAsset : Address) (quantity : Nat) (caller recipient : Address) :
    Result Unit :=
  let hook := w.rest.settings.managerIssuanceHook
  if hook ≠ 0 then (hooks hook).invokePreIssueHook w reserveAsset quantity caller recipient
  else pure ()

def callPreRedeemHooks (quantity : Nat) (caller recipient : Address) : Result Unit :=
  let hook := w.rest.settings.managerRedemptionHook
  if hook ≠ 0 then (hooks hook).invokePreRedeemHook w quantity caller recipient else pure ()

/-- The reserve asset to the SetToken and the fees to their recipients, all from the sender. -/
def transferCollateralAndHandleFees (sender reserveAsset : Address) (issueInfo : ActionInfo) :
    Result (NavWorld χ) := do
  let w ← ExplicitERC20.transferFrom w module reserveAsset sender w.setToken.self
    issueInfo.netFlowQuantity
  let w ← (if 0 < issueInfo.protocolFees then
      ExplicitERC20.transferFrom w module reserveAsset sender w.setToken.controller.feeRecipient
        issueInfo.protocolFees
    else pure w)
  if 0 < issueInfo.managerFee then
    ExplicitERC20.transferFrom w module reserveAsset sender w.rest.settings.feeRecipient
      issueInfo.managerFee
  else pure w

/-- The new multiplier and the new unit of the reserve asset. -/
def editPositions (reserveAsset : Address) (info : ActionInfo) : Result (NavWorld χ) := do
  let w ← w.callSetToken (·.editPositionMultiplier module info.newPositionMultiplier)
  w.callSetToken (Position.editDefaultPosition · module reserveAsset info.newReservePositionUnit)

def handleIssueStateUpdates (reserveAsset recipient : Address) (issueInfo : ActionInfo) :
    Result (NavWorld χ) := do
  let w ← editPositions module w reserveAsset issueInfo
  w.callSetToken (·.mint module recipient issueInfo.setTokenQuantity)

def handleRedemptionFees (reserveAsset : Address) (redeemInfo : ActionInfo) :
    Result (NavWorld χ) := do
  let w ← Invoke.strictInvokeTransfer w module reserveAsset w.setToken.controller.feeRecipient
    redeemInfo.protocolFees
  Invoke.strictInvokeTransfer w module reserveAsset w.rest.settings.feeRecipient
    redeemInfo.managerFee

def issue (sender reserveAsset : Address) (reserveAssetQuantity minSetTokenReceiveQuantity : Nat)
    (recipient : Address) : Result (NavWorld χ) := do
  validateOnlyValidAndInitializedSet w.setToken module
  validateCommon w reserveAsset reserveAssetQuantity
  callPreIssueHooks hooks w reserveAsset reserveAssetQuantity sender recipient
  let issueInfo ← createIssuanceInfo module oracles w reserveAsset reserveAssetQuantity
  validateIssuanceInfo w minSetTokenReceiveQuantity issueInfo
  let w ← transferCollateralAndHandleFees module w sender reserveAsset issueInfo
  handleIssueStateUpdates module w reserveAsset recipient issueInfo

def redeem (sender reserveAsset : Address) (setTokenQuantity minReserveReceiveQuantity : Nat)
    (recipient : Address) : Result (NavWorld χ) := do
  validateOnlyValidAndInitializedSet w.setToken module
  validateCommon w reserveAsset setTokenQuantity
  callPreRedeemHooks hooks w setTokenQuantity sender recipient
  let redeemInfo ← createRedemptionInfo module oracles w reserveAsset setTokenQuantity
  validateRedemptionInfo w minReserveReceiveQuantity redeemInfo
  let w ← w.callSetToken (·.burn module sender setTokenQuantity)
  let w ← Invoke.strictInvokeTransfer w module reserveAsset recipient redeemInfo.netFlowQuantity
  let w ← handleRedemptionFees module w reserveAsset redeemInfo
  editPositions module w reserveAsset redeemInfo

end Calls

end CustomOracleNavIssuanceModule

end IndexProtocol
