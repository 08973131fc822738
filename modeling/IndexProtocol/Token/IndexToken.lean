import IndexProtocol.Checkpoints
import IndexProtocol.Delegation
import IndexProtocol.Evm.Abi
import IndexProtocol.Staking.Solvency

/-! The INDEX token and its votes.

An account delegates its votes to another, and the token counts for every delegate
what the accounts that delegate to it hold. The count changes with every transfer and
every delegation, and each change is kept in a checkpoint with its block, so that the
votes of an earlier block can be asked for. Balances and votes are `uint96`, blocks
and the numbers of checkpoints `uint32`. -/
namespace IndexProtocol
open Evm

structure Block where
  number : Nat
  timestamp : Nat

structure IndexToken where
  allowances : Address → Address → Nat
  balances : Address → Nat
  delegates : Address → Address
  /-- `fromBlock` and `votes`, by delegate and number. -/
  checkpoints : Address → Nat → Checkpoint Nat
  numCheckpoints : Address → Nat
  nonces : Address → Nat

/-- What a signature is made for and checked with: the chain, the token, and the two functions of
the machine. -/
structure Signing where
  chainId : Nat
  self : Address
  keccak256 : Bytes → Nat
  ecrecover : Nat → Nat → Nat → Nat → Address

namespace IndexToken

/-- Ten million. -/
def totalSupply : Nat := 10000000 * 10 ^ 18

def construct (account : Address) : IndexToken where
  allowances := fun _ _ => 0
  balances := Function.update (fun _ => 0) account (totalSupply % 2 ^ 96)
  delegates := fun _ => 0
  checkpoints := fun _ _ => ⟨0, 0⟩
  numCheckpoints := fun _ => 0
  nonces := fun _ => 0

/-! ### Small integers -/

def safe32 (n : Nat) (errorMessage : String) : Result Nat := do
  require (n < 2 ^ 32) errorMessage
  pure n

def safe96 (n : Nat) (errorMessage : String) : Result Nat := do
  require (n < 2 ^ 96) errorMessage
  pure n

def add96 (a b : Nat) (errorMessage : String) : Result Nat := do
  let c := (a + b) % 2 ^ 96
  require (a ≤ c) errorMessage
  pure c

def sub96 (a b : Nat) (errorMessage : String) : Result Nat := do
  require (b ≤ a) errorMessage
  pure (a - b)

/-! ### Votes -/

section Votes
variable (t : IndexToken)

def getCurrentVotes (account : Address) : Nat :=
  let nCheckpoints := t.numCheckpoints account
  if 0 < nCheckpoints then (t.checkpoints account (nCheckpoints - 1)).value else 0

/-- In the block `now`. -/
def getPriorVotes (now : Nat) (account : Address) (blockNumber : Nat) : Result Nat := do
  require (blockNumber < now) "INDEX.getPriorVotes: not yet determined"
  let nCheckpoints := t.numCheckpoints account
  if nCheckpoints = 0 then pure 0
  else if (t.checkpoints account (nCheckpoints - 1)).time ≤ blockNumber then
    pure (t.checkpoints account (nCheckpoints - 1)).value
  else if blockNumber < (t.checkpoints account 0).time then pure 0
  else pure (History.search (t.checkpoints account) blockNumber 0 (nCheckpoints - 1))

def writeCheckpoint (now : Nat) (delegatee : Address) (nCheckpoints newVotes : Nat) :
    Result IndexToken := do
  let blockNumber ← safe32 now "INDEX._writeCheckpoint: block number exceeds 32 bits"
  let last := t.checkpoints delegatee (nCheckpoints - 1)
  if 0 < nCheckpoints ∧ last.time = blockNumber then
    pure { t with
      checkpoints := Function.update t.checkpoints delegatee
        (Function.update (t.checkpoints delegatee) (nCheckpoints - 1)
          { last with value := newVotes }) }
  else
    pure { t with
      checkpoints := Function.update t.checkpoints delegatee
        (Function.update (t.checkpoints delegatee) nCheckpoints ⟨blockNumber, newVotes⟩)
      numCheckpoints :=
        Function.update t.numCheckpoints delegatee ((nCheckpoints + 1) % 2 ^ 32) }

/-- The first half of `_moveDelegates`. -/
def takeVotes (now : Nat) (srcRep : Address) (amount : Nat) : Result IndexToken :=
  if srcRep ≠ 0 then do
    let srcRepNew ←
      sub96 (t.getCurrentVotes srcRep) amount "INDEX._moveVotes: vote amount underflows"
    t.writeCheckpoint now srcRep (t.numCheckpoints srcRep) srcRepNew
  else pure t

/-- The second half. -/
def addVotes (now : Nat) (dstRep : Address) (amount : Nat) : Result IndexToken :=
  if dstRep ≠ 0 then do
    let dstRepNew ←
      add96 (t.getCurrentVotes dstRep) amount "INDEX._moveVotes: vote amount overflows"
    t.writeCheckpoint now dstRep (t.numCheckpoints dstRep) dstRepNew
  else pure t

def moveDelegates (now : Nat) (srcRep dstRep : Address) (amount : Nat) : Result IndexToken :=
  if srcRep ≠ dstRep ∧ 0 < amount then do
    let t ← t.takeVotes now srcRep amount
    t.addVotes now dstRep amount
  else pure t

end Votes

/-! ### Transfers and delegations -/

section Calls
variable (t : IndexToken) (block : Block)

/-- The internal transfer, from any account. -/
def transferTokens (src dst : Address) (amount : Nat) : Result IndexToken := do
  require (src ≠ 0) "INDEX._transferTokens: cannot transfer from the zero address"
  require (dst ≠ 0) "INDEX._transferTokens: cannot transfer to the zero address"
  let srcBalance ←
    sub96 (t.balances src) amount "INDEX._transferTokens: transfer amount exceeds balance"
  let balances := Function.update t.balances src srcBalance
  let dstBalance ←
    add96 (balances dst) amount "INDEX._transferTokens: transfer amount overflows"
  { t with balances := Function.update balances dst dstBalance }.moveDelegates block.number
    (t.delegates src) (t.delegates dst) amount

/-- The internal delegation, of any account. -/
def delegateInternal (delegator delegatee : Address) : Result IndexToken :=
  { t with delegates := Function.update t.delegates delegator delegatee }.moveDelegates block.number
    (t.delegates delegator) delegatee (t.balances delegator)

def setAllowance (owner spender : Address) (amount : Nat) : IndexToken :=
  { t with allowances :=
      Function.update t.allowances owner (Function.update (t.allowances owner) spender amount) }

/-- All ones stand for all ones. -/
def approvedAmount (rawAmount : Nat) : Result Nat :=
  if rawAmount = uintBound - 1 then pure (2 ^ 96 - 1)
  else safe96 rawAmount "INDEX.approve: amount exceeds 96 bits"

def approve (sender spender : Address) (rawAmount : Nat) : Result IndexToken := do
  let amount ← approvedAmount rawAmount
  pure (t.setAllowance sender spender amount)

def transfer (sender dst : Address) (rawAmount : Nat) : Result IndexToken := do
  let amount ← safe96 rawAmount "INDEX.transfer: amount exceeds 96 bits"
  t.transferTokens block sender dst amount

/-- An allowance of all ones is never used up. -/
def spendAllowance (spender src : Address) (amount : Nat) : Result IndexToken :=
  if spender ≠ src ∧ t.allowances src spender ≠ 2 ^ 96 - 1 then do
    let newAllowance ← sub96 (t.allowances src spender) amount
      "INDEX.transferFrom: transfer amount exceeds spender allowance"
    pure (t.setAllowance src spender newAllowance)
  else pure t

def transferFrom (spender src dst : Address) (rawAmount : Nat) : Result IndexToken := do
  let amount ← safe96 rawAmount "INDEX.approve: amount exceeds 96 bits"
  let t ← t.spendAllowance spender src amount
  t.transferTokens block src dst amount

def delegate (sender delegatee : Address) : Result IndexToken :=
  t.delegateInternal block sender delegatee

variable (signing : Signing)

/-- What is signed to delegate. -/
def delegationDigest (delegatee : Address) (nonce expiry : Nat) : Nat :=
  let hash := signing.keccak256
  let domainTypehash :=
    hash (Bytes.ofAscii "EIP712Domain(string name,uint256 chainId,address verifyingContract)")
  let delegationTypehash :=
    hash (Bytes.ofAscii "Delegation(address delegatee,uint256 nonce,uint256 expiry)")
  let domainSeparator := hash (Abi.encodeWords
    [domainTypehash, hash (Bytes.ofAscii "Index"), signing.chainId, signing.self.toNat])
  let structHash := hash (Abi.encodeWords [delegationTypehash, delegatee.toNat, nonce, expiry])
  hash ([0x19, 0x01] ++ (Abi.encodeWord domainSeparator ++ Abi.encodeWord structHash))

def delegateBySig (delegatee : Address) (nonce expiry v r s : Nat) : Result IndexToken := do
  let digest := delegationDigest signing delegatee nonce expiry
  let signatory := signing.ecrecover digest v r s
  require (signatory ≠ 0) "INDEX.delegateBySig: invalid signature"
  require (nonce = t.nonces signatory) "INDEX.delegateBySig: invalid nonce"
  let nonces := Function.update t.nonces signatory ((t.nonces signatory + 1) % uintBound)
  require (block.timestamp ≤ expiry) "INDEX.delegateBySig: signature expired"
  { t with nonces := nonces }.delegateInternal block signatory delegatee

end Calls

/-! ### Transactions -/

inductive Call where
  | approve (sender spender : Address) (rawAmount : Nat)
  | transfer (sender dst : Address) (rawAmount : Nat)
  | transferFrom (sender src dst : Address) (rawAmount : Nat)
  | delegate (sender delegatee : Address)
  | delegateBySig (delegatee : Address) (nonce expiry v r s : Nat)

/-- A call and the block that it is in. -/
structure Transaction where
  block : Block
  call : Call

def step (signing : Signing) (t : IndexToken) (tx : Transaction) : Result IndexToken :=
  match tx.call with
  | .approve sender spender rawAmount => t.approve sender spender rawAmount
  | .transfer sender dst rawAmount => t.transfer tx.block sender dst rawAmount
  | .transferFrom sender src dst rawAmount => t.transferFrom tx.block sender src dst rawAmount
  | .delegate sender delegatee => t.delegate tx.block sender delegatee
  | .delegateBySig delegatee nonce expiry v r s =>
    t.delegateBySig tx.block signing delegatee nonce expiry v r s

/-- Blocks do not go back, and none is the first of the chain. -/
def InOrder (txs : List Transaction) : Prop :=
  (txs.Pairwise fun a b => a.block.number ≤ b.block.number) ∧ ∀ tx ∈ txs, 0 < tx.block.number

end IndexToken

end IndexProtocol
