import IndexProtocol.Auction.Optimistic
import IndexProtocol.Global.BaseExtension

/-! The GlobalOptimisticAuctionRebalanceExtension: optimistic rebalances of many SetTokens.

The operator of each product chooses an oracle for it. Proposals of all products
share two mappings, which are keyed by hashes that name the product and by ids
that the oracles return. What a function does before and after the calls that
leave it is defined apart, since those calls may come back. -/
namespace IndexProtocol
open Evm Optimistic

namespace GlobalOptimisticAuctionRebalanceExtension

structure ProductSettings where
  optimisticParams : OptimisticRebalanceParams
  rulesHash : Nat

structure Proposal (η : Type) where
  proposalHash : η
  product : Address

/-- The contracts around the extension, as it calls them. -/
structure Surroundings (ω : Type) extends Bonds ω where
  managers : DelegatedManagers ω StartCall
  getComponents : Address → ω → List Address
  /-- The asserter that an oracle answers for an id, or 0. -/
  getAsserter : Address → Nat → ω → Address

end GlobalOptimisticAuctionRebalanceExtension

structure GlobalOptimisticAuctionRebalanceExtension (η : Type) where
  setManagers : Address → Address
  productSettings : Address → GlobalOptimisticAuctionRebalanceExtension.ProductSettings
  assertionIds : η → Nat
  proposedProduct : Nat → GlobalOptimisticAuctionRebalanceExtension.Proposal η

structure GlobalOptimisticWorld (η ω : Type) where
  extension : GlobalOptimisticAuctionRebalanceExtension η
  others : ω

namespace GlobalOptimisticAuctionRebalanceExtension
variable {η ω : Type} [DecidableEq η] [Zero η]

def construct : GlobalOptimisticAuctionRebalanceExtension η where
  setManagers := fun _ => 0
  productSettings := fun _ => ⟨⟨0, 0, 0, 0, 0⟩, 0⟩
  assertionIds := fun _ => 0
  proposedProduct := fun _ => ⟨0, 0⟩

/-- The oracle of a product, or 0. -/
def oracle (x : GlobalOptimisticAuctionRebalanceExtension η) (product : Address) : Address :=
  (x.productSettings product).optimisticParams.optimisticOracleV3

/-- Deletes what stands under an id, and the id of its proposal. -/
def deleteProposal (x : GlobalOptimisticAuctionRebalanceExtension η) (assertionId : Nat) :
    GlobalOptimisticAuctionRebalanceExtension η :=
  { x with
    assertionIds :=
      Function.update x.assertionIds (x.proposedProduct assertionId).proposalHash 0
    proposedProduct := Function.update x.proposedProduct assertionId ⟨0, 0⟩ }

/-- Writes a proposal and its id. -/
def writeProposal (x : GlobalOptimisticAuctionRebalanceExtension η) (proposalHash : η)
    (product : Address) (assertionId : Nat) : GlobalOptimisticAuctionRebalanceExtension η :=
  { x with
    assertionIds := Function.update x.assertionIds proposalHash assertionId
    proposedProduct := Function.update x.proposedProduct assertionId ⟨proposalHash, product⟩ }

section Functions
variable (e : Surroundings ω) (hash : Address × Rebalance × Bool → η)
  (w : GlobalOptimisticWorld η ω) (sender : Address)

def initializeExtension (delegatedManager : Address) : Result (GlobalOptimisticWorld η ω) := do
  let (setManagers, others) ← BaseGlobalExtension.initializeExtension e.managers
    w.extension.setManagers w.others sender delegatedManager
  pure ⟨{ w.extension with setManagers := setManagers }, others⟩

def removeExtension : Result (GlobalOptimisticWorld η ω) := do
  let setManagers ←
    BaseGlobalExtension.removeExtension e.managers w.extension.setManagers w.others sender
  pure { w with extension := { w.extension with setManagers := setManagers } }

def setProductSettings (product : Address) (optimisticParams : OptimisticRebalanceParams)
    (rulesHash : Nat) : Result (GlobalOptimisticWorld η ω) := do
  BaseGlobalExtension.onlyOperator e.managers w.extension.setManagers w.others sender product
  pure { w with
    extension :=
      { w.extension with
        productSettings :=
          Function.update w.extension.productSettings product ⟨optimisticParams, rulesHash⟩ } }

variable (setToken : Address) (rebalance : Rebalance) (shouldLockSetToken : Bool)

/-- Up to the oracle's call, the bond pulled. -/
def beginProposal : Result (GlobalOptimisticWorld η ω) := do
  let proposalHash := hash (setToken, rebalance, shouldLockSetToken)
  let settings := w.extension.productSettings setToken
  require (w.extension.assertionIds proposalHash = 0) "Proposal already exists"
  require (settings.rulesHash ≠ 0) "Rules not set"
  require (settings.optimisticParams.optimisticOracleV3 ≠ 0) "Oracle not set"
  let (_, others) ← pullBond e.toBonds settings.optimisticParams sender w.others
  pure { w with others := others }

/-- What follows the oracle's answer. -/
def endProposal (assertionId : Nat) : GlobalOptimisticWorld η ω :=
  { w with
    extension := w.extension.writeProposal (hash (setToken, rebalance, shouldLockSetToken)) setToken
      assertionId }

/-- `assertTruth` is the call of the product's oracle, and what it does meanwhile. -/
def proposeRebalance
    (assertTruth : GlobalOptimisticWorld η ω → Result (GlobalOptimisticWorld η ω × Nat)) :
    Result (GlobalOptimisticWorld η ω) := do
  let w ← beginProposal e hash w sender setToken rebalance shouldLockSetToken
  let (w, assertionId) ← assertTruth w
  pure (endProposal hash w setToken rebalance shouldLockSetToken assertionId)

/-- The id that stands for a rebalance. -/
def idOf : Nat := w.extension.assertionIds (hash (setToken, rebalance, shouldLockSetToken))

/-- Up to the oracle's call, the proposal deleted. -/
def beginStart : Result (GlobalOptimisticWorld η ω) := do
  let assertionId := idOf hash w setToken rebalance shouldLockSetToken
  require (assertionId ≠ 0) "Proposal hash does not exist"
  pure { w with extension := w.extension.deleteProposal assertionId }

/-- What follows the oracle's answer. -/
def endStart : Result (GlobalOptimisticWorld η ω) := do
  validateComponents (e.getComponents setToken w.others) rebalance.oldComponents
  let others ← e.managers.interactManager (w.extension.setManagers setToken)
    (rebalance.call setToken shouldLockSetToken) w.others
  pure { w with others := others }

/-- Callable by anybody. `settleAndGetAssertionResult` is the call of the product's oracle, and
what it does meanwhile; the result is not looked at. -/
def startRebalance (settleAndGetAssertionResult :
      Address → Nat → GlobalOptimisticWorld η ω → Result (GlobalOptimisticWorld η ω)) :
    Result (GlobalOptimisticWorld η ω) := do
  let assertionId := idOf hash w setToken rebalance shouldLockSetToken
  let oracle := w.extension.oracle setToken
  let w ← beginStart hash w setToken rebalance shouldLockSetToken
  let w ← settleAndGetAssertionResult oracle assertionId w
  endStart e w setToken rebalance shouldLockSetToken

/-- The callback of the oracle of the product that stands under the id. Others may where that
oracle does not know the id. -/
def assertionDisputedCallback (assertionId : Nat) : Result (GlobalOptimisticWorld η ω) := do
  let proposal := w.extension.proposedProduct assertionId
  let oracle := w.extension.oracle proposal.product
  require (oracle ≠ 0) "Invalid oracle address"
  if sender = oracle then pure { w with extension := w.extension.deleteProposal assertionId }
  else do
    require (proposal.proposalHash ≠ 0) "Invalid proposal hash"
    require (e.getAsserter oracle assertionId w.others = 0) "Oracle has assertion"
    pure { w with extension := w.extension.deleteProposal assertionId }

end Functions

theorem assertionDisputedCallback_eq {e : Surroundings ω} {w v : GlobalOptimisticWorld η ω}
    {sender : Address} {assertionId : Nat}
    (h : assertionDisputedCallback e w sender assertionId = .ok v) :
    v = { w with extension := w.extension.deleteProposal assertionId } := by
  simp only [assertionDisputedCallback, bind_eq_ok] at h
  obtain ⟨_, _, h⟩ := h
  by_cases hsender : sender = w.extension.oracle (w.extension.proposedProduct assertionId).product
  · rw [if_pos hsender, pure_eq_ok] at h
    exact h.symm
  · rw [if_neg hsender] at h
    simp only [bind_eq_ok, pure_eq_ok] at h
    obtain ⟨_, _, _, _, rfl⟩ := h
    rfl

end GlobalOptimisticAuctionRebalanceExtension

end IndexProtocol
