import IndexProtocol.Auction.Module

/-! What the optimistic extensions of the auction module share.

Anybody may propose a rebalance, which an optimistic oracle then holds for true
unless it is disputed in time. An extension knows a proposal by its hash and an
assertion by the id that the oracle gave it. -/
namespace IndexProtocol
open Evm AuctionRebalanceModuleV1

namespace Optimistic

deriving instance DecidableEq for AuctionExecutionParams

/-- The parameters of a rebalance, as they are proposed, hashed and started. -/
structure Rebalance where
  quoteAsset : Address
  oldComponents : List Address
  newComponents : List Address
  newComponentsAuctionParams : List AuctionExecutionParams
  oldComponentsAuctionParams : List AuctionExecutionParams
  rebalanceDuration : Nat
  positionMultiplier : Nat
  deriving DecidableEq

/-- The call of `AuctionRebalanceModuleV1.startRebalance`. -/
structure StartCall where
  setToken : Address
  quoteAsset : Address
  newComponents : List Address
  newComponentsAuctionParams : List AuctionExecutionParams
  oldComponentsAuctionParams : List AuctionExecutionParams
  shouldLockSetToken : Bool
  rebalanceDuration : Nat
  positionMultiplier : Nat
  deriving DecidableEq

def Rebalance.call (p : Rebalance) (setToken : Address) (shouldLockSetToken : Bool) : StartCall where
  setToken := setToken
  quoteAsset := p.quoteAsset
  newComponents := p.newComponents
  newComponentsAuctionParams := p.newComponentsAuctionParams
  oldComponentsAuctionParams := p.oldComponentsAuctionParams
  shouldLockSetToken := shouldLockSetToken
  rebalanceDuration := p.rebalanceDuration
  positionMultiplier := p.positionMultiplier

/-- A hash that is what was hashed. -/
inductive Preimage where
  | zero
  | of (p : Address × Rebalance × Bool)
  deriving DecidableEq

instance : Zero Preimage := ⟨.zero⟩

theorem Preimage.of_injective : Function.Injective Preimage.of := fun _ _ h => Preimage.of.inj h

structure OptimisticRebalanceParams where
  collateral : Address
  liveness : Nat
  bondAmount : Nat
  identifier : Nat
  optimisticOracleV3 : Address
  deriving DecidableEq, Repr

def validateComponents (currentComponents oldComponents : List Address) : Result Unit := do
  require (currentComponents.length = oldComponents.length)
    "Mismatch: old and current components length"
  require (currentComponents = oldComponents) "Mismatch: old and current components"

/-- The tokens, as a bond is pulled. -/
structure Bonds (ω : Type) where
  getMinimumBond : Address → Address → ω → Result Nat
  safeTransferFrom : Address → Address → Nat → ω → Result ω
  safeIncreaseAllowance : Address → Address → Nat → ω → Result ω

/-- The bond is the configured one, or the oracle's minimum if that is more. -/
def pullBond {ω : Type} (e : Bonds ω) (params : OptimisticRebalanceParams) (sender : Address)
    (w : ω) : Result (Nat × ω) := do
  let minimumBond ← e.getMinimumBond params.optimisticOracleV3 params.collateral w
  let totalBond := if params.bondAmount < minimumBond then minimumBond else params.bondAmount
  let w ← e.safeTransferFrom params.collateral sender totalBond w
  let w ← e.safeIncreaseAllowance params.collateral params.optimisticOracleV3 totalBond w
  pure (totalBond, w)

/-! ### Oracles -/

/-- An assertion at an oracle. -/
structure Assertion where
  oracle : Address
  asserter : Address
  callbackRecipient : Address
  bond : Nat
  disputed : Bool
  /-- The result, once the assertion can be settled. -/
  result : Option Bool
  deriving DecidableEq, Repr

/-- The assertions at all oracles, by id. -/
abbrev Assertions := Nat → Option Assertion

/-- The oracle gives an id that no assertion has, and is not zero. -/
def assertTruth (assertions : Assertions) (assertionId : Nat) (a : Assertion) :
    Result Assertions := do
  require (assertionId ≠ 0 ∧ assertions assertionId = none) "Assertion already exists"
  pure (Function.update assertions assertionId (some a))

/-- An assertion at this oracle. -/
def known (assertions : Assertions) (oracle : Address) (assertionId : Nat) : Option Assertion :=
  (assertions assertionId).filter fun a => a.oracle = oracle

/-- The result, where the oracle knows the assertion and can settle it. -/
def settleAndGetAssertionResult (assertions : Assertions) (oracle : Address) (assertionId : Nat) :
    Result Bool :=
  match (known assertions oracle assertionId).bind Assertion.result with
  | some result => .ok result
  | none => .error "Assertion not expired"

/-- The asserter, or 0 where the oracle does not know the assertion. -/
def getAsserter (assertions : Assertions) (oracle : Address) (assertionId : Nat) : Address :=
  match known assertions oracle assertionId with
  | some a => a.asserter
  | none => 0

end Optimistic

end IndexProtocol
