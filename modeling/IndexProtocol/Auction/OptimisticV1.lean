import IndexProtocol.Auction.Optimistic

/-! The OptimisticAuctionRebalanceExtensionV1: rebalances that nobody disputed.

While the extension is open, anybody proposes a rebalance, and anybody starts it
once the oracle holds it for true; a dispute deletes the proposal. Proposals and
assertions name each other in two mappings. -/
namespace IndexProtocol
open Evm Optimistic

namespace OptimisticAuctionRebalanceExtensionV1

structure ProductSettings where
  optimisticParams : OptimisticRebalanceParams
  rules : String

/-- The contracts around the extension but the oracles. -/
structure Surroundings (ω : Type) extends Bonds ω where
  operator : ω → Address
  getComponents : ω → List Address
  /-- The manager has the auction module start a rebalance. -/
  interactManager : StartCall → ω → Result ω

end OptimisticAuctionRebalanceExtensionV1

structure OptimisticAuctionRebalanceExtensionV1 (η : Type) where
  self : Address
  setToken : Address
  productSettings : OptimisticAuctionRebalanceExtensionV1.ProductSettings
  assertionIds : η → Nat
  assertionIdToProposalHash : Nat → η
  isOpen : Bool
  useAssetAllowlist : Bool
  assetAllowlist : Address → Bool
  allowedAssets : List Address

structure OptimisticWorld (η ω : Type) where
  extension : OptimisticAuctionRebalanceExtensionV1 η
  assertions : Assertions
  others : ω

namespace OptimisticAuctionRebalanceExtensionV1
variable {η ω : Type} [DecidableEq η] [Zero η]

/-! ### The allow list -/

section AllowList
variable (x : OptimisticAuctionRebalanceExtensionV1 η)

def addAllowedAsset (asset : Address) : Result (OptimisticAuctionRebalanceExtensionV1 η) := do
  require (x.assetAllowlist asset = false) "Asset already added"
  pure { x with
    allowedAssets := x.allowedAssets ++ [asset]
    assetAllowlist := Function.update x.assetAllowlist asset true }

def removeAllowedAsset (asset : Address) : Result (OptimisticAuctionRebalanceExtensionV1 η) := do
  require (x.assetAllowlist asset = true) "Asset not already added"
  let allowedAssets ← AddressArrayUtils.removeStorage x.allowedAssets asset
  pure { x with
    allowedAssets := allowedAssets
    assetAllowlist := Function.update x.assetAllowlist asset false }

/-- All assets are allowed, if the list is in use. -/
def areAllowedAssets (assets : List Address) : Bool :=
  !x.useAssetAllowlist || assets.all x.assetAllowlist

/-- The storage before the constructor. -/
def empty (self setToken : Address) : OptimisticAuctionRebalanceExtensionV1 η where
  self := self
  setToken := setToken
  productSettings := ⟨⟨0, 0, 0, 0, 0⟩, ""⟩
  assertionIds := fun _ => 0
  assertionIdToProposalHash := fun _ => 0
  isOpen := false
  useAssetAllowlist := false
  assetAllowlist := fun _ => false
  allowedAssets := []

/-- The constructor. -/
def deploy (self setToken : Address) (useAssetAllowlist : Bool) (allowedAssets : List Address) :
    Result (OptimisticAuctionRebalanceExtensionV1 η) := do
  let x ← runs addAllowedAsset (empty self setToken) allowedAssets
  pure { x with useAssetAllowlist := useAssetAllowlist }

/-- Deletes the proposal of an assertion, in both mappings. -/
def deleteProposal (assertionId : Nat) : OptimisticAuctionRebalanceExtensionV1 η :=
  { x with
    assertionIds := Function.update x.assertionIds (x.assertionIdToProposalHash assertionId) 0
    assertionIdToProposalHash := Function.update x.assertionIdToProposalHash assertionId 0 }

end AllowList

/-! ### External functions -/

section Functions
variable (e : Surroundings ω) (hash : Address × Rebalance × Bool → η) (w : OptimisticWorld η ω)
  (sender : Address)

def onlyOperator : Result Unit := require (sender = e.operator w.others) "Must be operator"

def onlyIfOpen : Result Unit :=
  require (w.extension.isOpen = true) "Must be open for rebalancing"

/-- A write of the operator. -/
def operate (f : OptimisticAuctionRebalanceExtensionV1 η →
    Result (OptimisticAuctionRebalanceExtensionV1 η)) : Result (OptimisticWorld η ω) := do
  onlyOperator e w sender
  let x ← f w.extension
  pure { w with extension := x }

def addAllowedAssets (assets : List Address) : Result (OptimisticWorld η ω) :=
  operate e w sender fun x => runs addAllowedAsset x assets

def removeAllowedAssets (assets : List Address) : Result (OptimisticWorld η ω) :=
  operate e w sender fun x => runs removeAllowedAsset x assets

def updateUseAssetAllowlist (useAssetAllowlist : Bool) : Result (OptimisticWorld η ω) :=
  operate e w sender fun x => pure { x with useAssetAllowlist := useAssetAllowlist }

def updateIsOpen (isOpen : Bool) : Result (OptimisticWorld η ω) :=
  operate e w sender fun x => pure { x with isOpen := isOpen }

def setProductSettings (optimisticParams : OptimisticRebalanceParams) (rules : String) :
    Result (OptimisticWorld η ω) :=
  operate e w sender fun x => pure { x with productSettings := ⟨optimisticParams, rules⟩ }

/-- `assertionId` is the id that the oracle gives. -/
def proposeRebalance (rebalance : Rebalance) (assertionId : Nat) :
    Result (OptimisticWorld η ω) := do
  require (w.extension.areAllowedAssets rebalance.newComponents = true) "Invalid asset"
  onlyIfOpen w
  let proposalHash := hash (w.extension.setToken, rebalance, false)
  let settings := w.extension.productSettings
  let oracle := settings.optimisticParams.optimisticOracleV3
  require (w.extension.assertionIds proposalHash = 0) "Proposal already exists"
  require (settings.rules ≠ "") "Rules not set"
  require (oracle ≠ 0) "Oracle not set"
  let (totalBond, others) ← pullBond e.toBonds settings.optimisticParams sender w.others
  let assertions ←
    assertTruth w.assertions assertionId ⟨oracle, sender, w.extension.self, totalBond, false, none⟩
  pure { w with
    extension :=
      { w.extension with
        assertionIds := Function.update w.extension.assertionIds proposalHash assertionId
        assertionIdToProposalHash :=
          Function.update w.extension.assertionIdToProposalHash assertionId proposalHash }
    assertions := assertions
    others := others }

/-- Callable by anybody. The result of the assertion is not looked at. -/
def startRebalance (rebalance : Rebalance) (shouldLockSetToken : Bool) :
    Result (OptimisticWorld η ω) := do
  onlyIfOpen w
  let proposalHash := hash (w.extension.setToken, rebalance, shouldLockSetToken)
  let assertionId := w.extension.assertionIds proposalHash
  require (assertionId ≠ 0) "Proposal hash does not exist"
  let w := { w with extension := w.extension.deleteProposal assertionId }
  let _ ← settleAndGetAssertionResult w.assertions
    w.extension.productSettings.optimisticParams.optimisticOracleV3 assertionId
  validateComponents (e.getComponents w.others) rebalance.oldComponents
  let others ←
    e.interactManager (rebalance.call w.extension.setToken shouldLockSetToken) w.others
  pure { w with extension := { w.extension with isOpen := false }, others := others }

/-- The oracle's callback deletes the proposal. Others may where the oracle does not know it. -/
def assertionDisputedCallback (assertionId : Nat) : Result (OptimisticWorld η ω) := do
  let proposalHash := w.extension.assertionIdToProposalHash assertionId
  let oracle := w.extension.productSettings.optimisticParams.optimisticOracleV3
  require (oracle ≠ 0) "Invalid oracle address"
  if sender = oracle then pure { w with extension := w.extension.deleteProposal assertionId }
  else do
    require (proposalHash ≠ 0) "Invalid proposal hash"
    require (getAsserter w.assertions oracle assertionId = 0) "Oracle has assertion"
    pure { w with extension := w.extension.deleteProposal assertionId }

end Functions

/-! ### Oracles and the extension -/

/-- An assertion is disputed in time, and its recipient called back. The dispute fails with it. -/
def disputeAssertion (w : OptimisticWorld η ω) (assertionId : Nat) : Result (OptimisticWorld η ω) :=
  match w.assertions assertionId with
  | none => .error "Assertion does not exist"
  | some a => do
    require (a.disputed = false ∧ a.result = none) "Assertion not disputable"
    let w := { w with
      assertions := Function.update w.assertions assertionId (some { a with disputed := true }) }
    if a.callbackRecipient = w.extension.self then assertionDisputedCallback w a.oracle assertionId
    else pure w

/-- An assertion expires, or a dispute of it is resolved. -/
def resolveAssertion (w : OptimisticWorld η ω) (assertionId : Nat) (result : Bool) :
    Result (OptimisticWorld η ω) :=
  match w.assertions assertionId with
  | none => .error "Assertion does not exist"
  | some a =>
    pure { w with
      assertions :=
        Function.update w.assertions assertionId (some { a with result := some result }) }

/-- Somebody else asserts something. -/
def assertElsewhere (w : OptimisticWorld η ω) (assertionId : Nat) (a : Assertion) :
    Result (OptimisticWorld η ω) := do
  let assertions ← assertTruth w.assertions assertionId a
  pure { w with assertions := assertions }

inductive Action (ω : Type) where
  | setProductSettings (sender : Address) (optimisticParams : OptimisticRebalanceParams)
    (rules : String)
  | updateIsOpen (sender : Address) (isOpen : Bool)
  | addAllowedAssets (sender : Address) (assets : List Address)
  | removeAllowedAssets (sender : Address) (assets : List Address)
  | updateUseAssetAllowlist (sender : Address) (useAssetAllowlist : Bool)
  | proposeRebalance (sender : Address) (rebalance : Rebalance) (assertionId : Nat)
  | startRebalance (rebalance : Rebalance) (shouldLockSetToken : Bool)
  | assertionDisputedCallback (sender : Address) (assertionId : Nat)
  | disputeAssertion (assertionId : Nat)
  | resolveAssertion (assertionId : Nat) (result : Bool)
  | assertElsewhere (assertionId : Nat) (a : Assertion)
  /-- Whatever else happens to the other contracts. -/
  | elsewhere (others : ω)

/-- A proposal as it was made: in an open extension, of allowed components. -/
structure Proposal where
  rebalance : Rebalance
  assertionId : Nat
  isOpen : Bool
  allowed : Bool

inductive Event where
  | proposed (p : Proposal)
  | started (rebalance : Rebalance)
  | disputed (assertionId : Nat)

structure Recorded (η ω : Type) where
  world : OptimisticWorld η ω
  /-- The latest first. -/
  events : List Event

variable (e : Surroundings ω) (hash : Address × Rebalance × Bool → η)

def record (r : Recorded η ω) : Action ω → Result (Recorded η ω)
  | .setProductSettings sender optimisticParams rules => do
    let w ← setProductSettings e r.world sender optimisticParams rules
    pure { r with world := w }
  | .updateIsOpen sender isOpen => do
    let w ← updateIsOpen e r.world sender isOpen
    pure { r with world := w }
  | .addAllowedAssets sender assets => do
    let w ← addAllowedAssets e r.world sender assets
    pure { r with world := w }
  | .removeAllowedAssets sender assets => do
    let w ← removeAllowedAssets e r.world sender assets
    pure { r with world := w }
  | .updateUseAssetAllowlist sender useAssetAllowlist => do
    let w ← updateUseAssetAllowlist e r.world sender useAssetAllowlist
    pure { r with world := w }
  | .proposeRebalance sender rebalance assertionId => do
    let w ← proposeRebalance e hash r.world sender rebalance assertionId
    let x := r.world.extension
    pure ⟨w, .proposed ⟨rebalance, assertionId, x.isOpen,
      x.areAllowedAssets rebalance.newComponents⟩ :: r.events⟩
  | .startRebalance rebalance shouldLockSetToken => do
    let w ← startRebalance e hash r.world rebalance shouldLockSetToken
    pure ⟨w, .started rebalance :: r.events⟩
  | .assertionDisputedCallback sender assertionId => do
    let w ← assertionDisputedCallback r.world sender assertionId
    pure { r with world := w }
  | .disputeAssertion assertionId => do
    let w ← disputeAssertion r.world assertionId
    pure ⟨w, .disputed assertionId :: r.events⟩
  | .resolveAssertion assertionId result => do
    let w ← resolveAssertion r.world assertionId result
    pure { r with world := w }
  | .assertElsewhere assertionId a => do
    let w ← assertElsewhere r.world assertionId a
    pure { r with world := w }
  | .elsewhere others => pure { r with world := { r.world with others := others } }

/-- The last proposal of a rebalance, if it was not started since. -/
def standing (rebalance : Rebalance) : List Event → Option Proposal
  | [] => none
  | .proposed p :: earlier =>
    if p.rebalance = rebalance then some p else standing rebalance earlier
  | .started started :: earlier =>
    if started = rebalance then none else standing rebalance earlier
  | .disputed _ :: earlier => standing rebalance earlier

end OptimisticAuctionRebalanceExtensionV1

end IndexProtocol
