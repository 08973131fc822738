import IndexProtocol.Bitmap
import IndexProtocol.Erc20
import IndexProtocol.Evm.Bytes
import Mathlib.Algebra.BigOperators.Group.Finset.Piecewise
import Mathlib.Algebra.Order.BigOperators.Group.Finset
import Mathlib.Algebra.Order.BigOperators.Group.List

/-! MerkleDistributor: a token is given out by a tree of drops.

A drop is an amount for an account, under an index. Whoever shows a proof that the tree has it gets
it paid, and the bit of its index is set. Hashes are numbers; `keccak256` and the `verify` of proofs
are parameters. What the contract relies on is that only the drops of the tree have proofs. -/
namespace IndexProtocol
open Evm

/-! ### Ledgers -/

namespace Erc20
variable {t t' : Erc20} {sender recipient : Address} {amount : Nat}

/-- No accounts have more than there is. -/
structure WithinSupply (t : Erc20) : Prop where
  supply_lt : t.totalSupply < uintBound
  le : ∀ accounts : Finset Address, ∑ account ∈ accounts, t.balanceOf account ≤ t.totalSupply

theorem Moved.withinSupply (h : t.Moved t' sender recipient amount)
    (hsupply : t'.totalSupply = t.totalSupply) (hwithin : t.WithinSupply) : t'.WithinSupply := by
  refine ⟨hsupply ▸ hwithin.supply_lt, fun accounts => ?_⟩
  let all := insert sender (insert recipient accounts)
  have hsums : ∑ account ∈ all, t'.balanceOf account + amount =
      ∑ account ∈ all, t.balanceOf account + amount := by
    have hsum := Finset.sum_congr (rfl : all = all) fun account _ => h account
    rw [Finset.sum_add_distrib, Finset.sum_add_distrib, Finset.sum_ite_eq', Finset.sum_ite_eq',
      if_pos (Finset.mem_insert_self ..),
      if_pos (Finset.mem_insert_of_mem (Finset.mem_insert_self ..))] at hsum
    exact hsum
  calc ∑ account ∈ accounts, t'.balanceOf account
      ≤ ∑ account ∈ all, t'.balanceOf account := by
        refine Finset.sum_le_sum_of_subset fun account hmem => ?_
        exact Finset.mem_insert_of_mem (Finset.mem_insert_of_mem hmem)
    _ = ∑ account ∈ all, t.balanceOf account := Nat.add_right_cancel hsums
    _ ≤ t.totalSupply := hwithin.le all
    _ = t'.totalSupply := hsupply.symm

/-- In such a ledger nothing but the sender's balance and the zero address stops a transfer. -/
theorem WithinSupply.transfer_returns_iff (h : t.WithinSupply) :
    (∃ t', t.transfer sender recipient amount = .ok t') ↔
      sender ≠ 0 ∧ recipient ≠ 0 ∧ amount ≤ t.balanceOf sender := by
  simp only [transfer, transferInternal, bind_eq_ok, require_eq_ok, SafeMath.subOr_eq_ok,
    SafeMath.add_eq_ok, pure_eq_ok, exists_const]
  constructor
  · rintro ⟨_, hsender, hrecipient, _, ⟨hle, rfl⟩, _⟩
    exact ⟨hsender, hrecipient, hle⟩
  · rintro ⟨hsender, hrecipient, hle⟩
    refine ⟨_, hsender, hrecipient, _, ⟨hle, rfl⟩, _, ⟨?_, rfl⟩, rfl⟩
    have hbound := h.supply_lt
    change amount ≤ t.balances sender at hle
    by_cases hsame : recipient = sender
    · have hone := h.le {sender}
      rw [Finset.sum_singleton, balanceOf] at hone
      rw [hsame, Function.update_self]
      omega
    · have htwo := h.le {recipient, sender}
      rw [Finset.sum_pair hsame, balanceOf, balanceOf] at htwo
      rw [Function.update_of_ne hsame]
      omega

/-- Nobody may move what the owner has. -/
def Unapproved (t : Erc20) (owner : Address) : Prop := ∀ spender, t.allowances owner spender = 0

theorem transferInternal_allowances (h : t.transferInternal sender recipient amount = .ok t') :
    t'.allowances = t.allowances := by
  simp only [transferInternal, bind_eq_ok, pure_eq_ok] at h
  obtain ⟨_, _, _, _, _, _, _, _, rfl⟩ := h
  rfl

theorem approveInternal_unapproved {owner approver spender : Address}
    (h : t.approveInternal approver spender amount = .ok t') (hunapproved : t.Unapproved owner)
    (hamount : approver = owner → amount = 0) : t'.Unapproved owner := by
  simp only [approveInternal, bind_eq_ok, pure_eq_ok] at h
  obtain ⟨_, _, _, _, rfl⟩ := h
  intro other
  show Function.update t.allowances approver _ owner other = 0
  by_cases howner : approver = owner
  · subst howner
    rw [Function.update_self, hamount rfl]
    by_cases hother : other = spender
    · rw [hother, Function.update_self]
    · rw [Function.update_of_ne hother]
      exact hunapproved other
  · rw [Function.update_of_ne (Ne.symm howner)]
    exact hunapproved other

/-- Who has no allowance of the owner moves nothing of it. -/
theorem transferFrom_unapproved {owner caller : Address}
    (h : t.transferFrom caller sender recipient amount = .ok t') (hunapproved : t.Unapproved owner) :
    t'.Unapproved owner ∧ t.balanceOf owner ≤ t'.balanceOf owner := by
  have hmoved := (transferFrom_moved h).1 owner
  simp only [transferFrom, bind_eq_ok, SafeMath.subOr_eq_ok] at h
  obtain ⟨u, htransfer, _, ⟨hle, rfl⟩, happrove⟩ := h
  have hallowances := transferInternal_allowances htransfer
  have hu : u.Unapproved owner := fun spender => hallowances ▸ hunapproved spender
  have hnothing : sender = owner → amount = 0 := by
    rintro rfl
    have := hu caller
    omega
  refine ⟨approveInternal_unapproved happrove hu fun heq => ?_, ?_⟩
  · subst heq
    rw [hu caller, Nat.zero_sub]
  · by_cases howner : owner = sender
    · rw [if_pos howner, hnothing howner.symm] at hmoved
      omega
    · rw [if_neg howner] at hmoved
      exact Nat.le.intro hmoved.symm

end Erc20

namespace MerkleDistributor

/-- An amount for an account. The numbers are words. -/
structure Drop where
  index : Nat
  account : Address
  amount : Nat
  index_lt : index < uintBound
  amount_lt : amount < uintBound
deriving DecidableEq

end MerkleDistributor

open MerkleDistributor (Drop)

/-- The contract, with the ledger of the token that it gives out. -/
structure MerkleDistributor where
  self : Address
  token : Erc20
  merkleRoot : Nat
  claimedBitMap : Bitmap

namespace MerkleDistributor

/-- What is hashed of a drop. -/
def encodePacked (drop : Drop) : Bytes :=
  Bytes.ofNat 32 drop.index ++ Bytes.ofNat 20 drop.account.toNat ++ Bytes.ofNat 32 drop.amount

section Contract
variable (keccak256 : Bytes → Nat) (verify : List Nat → Nat → Nat → Bool) (d : MerkleDistributor)

def isClaimed (index : Nat) : Bool :=
  let claimedWordIndex := index / 256
  let claimedBitIndex := index % 256
  let claimedWord := d.claimedBitMap claimedWordIndex
  let mask := 1 <<< claimedBitIndex
  claimedWord &&& mask == mask

def setClaimed (index : Nat) : MerkleDistributor :=
  let claimedWordIndex := index / 256
  let claimedBitIndex := index % 256
  { d with
    claimedBitMap := Function.update d.claimedBitMap claimedWordIndex
      (d.claimedBitMap claimedWordIndex ||| 1 <<< claimedBitIndex) }

def leaf (drop : Drop) : Nat := keccak256 (encodePacked drop)

/-- The token either moves the amount or reverts. -/
def claim (drop : Drop) (merkleProof : List Nat) : Result MerkleDistributor := do
  require (d.isClaimed drop.index = false) "MerkleDistributor: Drop already claimed."
  let node := leaf keccak256 drop
  require (verify merkleProof d.merkleRoot node = true) "MerkleDistributor: Invalid proof."
  let d := d.setClaimed drop.index
  let token ← d.token.transfer d.self drop.account drop.amount
  pure { d with token := token }

end Contract

/-- What anybody may call: the distributor, and the token in one's own name. -/
inductive Action where
  | claim (drop : Drop) (merkleProof : List Nat)
  | transfer (caller recipient : Address) (amount : Nat)
  | transferFrom (caller sender recipient : Address) (amount : Nat)
  | approve (caller spender : Address) (amount : Nat)

/-- The distributor itself calls the token only to pay. -/
def step (keccak256 : Bytes → Nat) (verify : List Nat → Nat → Nat → Bool) (d : MerkleDistributor) :
    Action → Result MerkleDistributor
  | .claim drop merkleProof => claim keccak256 verify d drop merkleProof
  | .transfer caller recipient amount => do
    require (caller ≠ d.self) "other callers"
    let token ← d.token.transfer caller recipient amount
    pure { d with token := token }
  | .transferFrom caller sender recipient amount => do
    require (caller ≠ d.self) "other callers"
    let token ← d.token.transferFrom caller sender recipient amount
    pure { d with token := token }
  | .approve caller spender amount => do
    require (caller ≠ d.self) "other callers"
    let token ← d.token.approve caller spender amount
    pure { d with token := token }

/-- The drops that a run claims, the last one first. -/
def recordClaim (claimed : List Drop) : Action → List Drop
  | .claim drop _ => drop :: claimed
  | _ => claimed

def claims (actions : List Action) : List Drop := actions.foldl recordClaim []

variable {keccak256 : Bytes → Nat} {verify : List Nat → Nat → Nat → Bool}
  {d e : MerkleDistributor} {drop : Drop} {drops claimed : List Drop} {merkleProof : List Nat}

/-- What the distributor has of the token. -/
def balance (d : MerkleDistributor) : Nat := d.token.balanceOf d.self

/-- What is still to be paid of the drops. -/
def outstanding (d : MerkleDistributor) (drops : List Drop) : Nat :=
  (drops.map fun drop => if d.isClaimed drop.index = true then 0 else drop.amount).sum

/-- Only the drops of the tree have proofs. -/
def OnlyDrops (keccak256 : Bytes → Nat) (verify : List Nat → Nat → Nat → Bool) (root : Nat)
    (drops : List Drop) : Prop :=
  ∀ drop merkleProof, verify merkleProof root (leaf keccak256 drop) = true → drop ∈ drops

/-! ### One claim -/

/-- What a claim does. -/
structure Claimed (d e : MerkleDistributor) (drop : Drop) : Prop where
  self : e.self = d.self
  merkleRoot : e.merkleRoot = d.merkleRoot
  bits : e.claimedBitMap = d.claimedBitMap.insert 256 drop.index
  moved : d.token.Moved e.token d.self drop.account drop.amount
  totalSupply : e.token.totalSupply = d.token.totalSupply
  allowances : e.token.allowances = d.token.allowances

theorem Claimed.isClaimed_iff (h : Claimed d e drop) (index : Nat) :
    e.isClaimed index = true ↔ index = drop.index ∨ d.isClaimed index = true := by
  show Bitmap.contains 256 e.claimedBitMap index = true ↔ _
  rw [h.bits]
  exact Bitmap.contains_insert

theorem claim_claimed (h : claim keccak256 verify d drop merkleProof = .ok e) :
    d.isClaimed drop.index = false ∧
      verify merkleProof d.merkleRoot (leaf keccak256 drop) = true ∧ Claimed d e drop := by
  simp only [claim, bind_eq_ok, require_eq_ok, exists_const, pure_eq_ok] at h
  obtain ⟨hnew, hproof, token, htransfer, rfl⟩ := h
  obtain ⟨hmoved, hsupply⟩ := Erc20.transferInternal_moved htransfer
  refine ⟨hnew, hproof, rfl, rfl, rfl, hmoved, hsupply, ?_⟩
  simp only [Erc20.transfer, Erc20.transferInternal, bind_eq_ok, pure_eq_ok] at htransfer
  obtain ⟨_, _, _, _, _, _, _, _, rfl⟩ := htransfer
  rfl

theorem Claimed.outstanding_of_notMem (h : Claimed d e drop)
    (hnot : drop.index ∉ drops.map Drop.index) : e.outstanding drops = d.outstanding drops := by
  refine congrArg List.sum (List.map_congr_left fun other hmem => ?_)
  have hne : other.index ≠ drop.index := fun heq => hnot (heq ▸ List.mem_map_of_mem hmem)
  rw [if_congr ((h.isClaimed_iff other.index).trans (or_iff_right hne)) rfl rfl]

/-- A claim takes the drop's amount off what is outstanding. -/
theorem Claimed.outstanding_of_mem (h : Claimed d e drop) (hnew : d.isClaimed drop.index = false)
    (hindexes : (drops.map Drop.index).Nodup) (hmem : drop ∈ drops) :
    e.outstanding drops + drop.amount = d.outstanding drops := by
  induction drops with
  | nil => exact absurd hmem List.not_mem_nil
  | cons first rest ih =>
    rw [List.map_cons, List.nodup_cons] at hindexes
    simp only [outstanding, List.map_cons, List.sum_cons]
    cases List.mem_cons.mp hmem with
    | inl hfirst =>
      subst hfirst
      have hrest := h.outstanding_of_notMem hindexes.1
      rw [outstanding, outstanding] at hrest
      rw [if_pos ((h.isClaimed_iff _).mpr (.inl rfl)), hnew, if_neg Bool.false_ne_true, hrest]
      omega
    | inr hlater =>
      have hne : first.index ≠ drop.index := fun heq =>
        hindexes.1 (heq ▸ List.mem_map_of_mem hlater)
      have hrest := ih hindexes.2 hlater
      rw [outstanding, outstanding] at hrest
      rw [if_congr ((h.isClaimed_iff _).trans (or_iff_right hne)) rfl rfl]
      omega

theorem amount_le_outstanding (hnew : d.isClaimed drop.index = false) (hmem : drop ∈ drops) :
    drop.amount ≤ d.outstanding drops := by
  refine List.le_sum_of_mem (List.mem_map.mpr ⟨drop, hmem, ?_⟩)
  rw [hnew, if_neg Bool.false_ne_true]

/-! ### Runs -/

/-- What holds of the state and of the drops claimed so far. -/
structure Sound (root : Nat) (drops : List Drop) (d : MerkleDistributor) (claimed : List Drop) :
    Prop where
  self_ne : d.self ≠ 0
  root : d.merkleRoot = root
  unapproved : d.token.Unapproved d.self
  ledger : d.token.WithinSupply
  words : ∀ k, d.claimedBitMap k < 2 ^ 256
  bits : ∀ index, d.isClaimed index = true ↔ index ∈ claimed.map Drop.index
  nodup : (claimed.map Drop.index).Nodup
  mem_drops : ∀ drop ∈ claimed, drop ∈ drops
  funded : d.outstanding drops ≤ d.balance

section Runs
variable {root : Nat}

/-- The token moved, not away from the distributor. -/
theorem Sound.of_token {token : Erc20} (h : Sound root drops d claimed)
    (hledger : token.WithinSupply)
    (hunapproved : token.Unapproved d.self)
    (hbalance : d.balance ≤ token.balanceOf d.self) :
    Sound root drops { d with token := token } claimed :=
  ⟨h.self_ne, h.root, hunapproved, hledger, h.words, h.bits, h.nodup, h.mem_drops,
    h.funded.trans hbalance⟩

theorem claim_sound (htree : OnlyDrops keccak256 verify root drops)
    (hindexes : (drops.map Drop.index).Nodup) (h : Sound root drops d claimed)
    (hclaim : claim keccak256 verify d drop merkleProof = .ok e) :
    Sound root drops e (drop :: claimed) := by
  obtain ⟨hnew, hproof, hclaimed⟩ := claim_claimed hclaim
  have hmem : drop ∈ drops := htree drop merkleProof (h.root ▸ hproof)
  refine ⟨hclaimed.self ▸ h.self_ne, hclaimed.merkleRoot.trans h.root, fun spender => ?_,
    hclaimed.moved.withinSupply hclaimed.totalSupply h.ledger, fun k => ?_, fun index => ?_, ?_,
    fun other hother => ?_, ?_⟩
  · rw [hclaimed.allowances, hclaimed.self]
    exact h.unapproved spender
  · rw [hclaimed.bits]
    exact Bitmap.insert_lt (by decide) h.words k
  · rw [hclaimed.isClaimed_iff, h.bits, List.map_cons, List.mem_cons]
  · rw [List.map_cons, List.nodup_cons, ← h.bits, hnew]
    exact ⟨Bool.false_ne_true, h.nodup⟩
  · cases List.mem_cons.mp hother with
    | inl heq => exact heq ▸ hmem
    | inr hbefore => exact h.mem_drops other hbefore
  · -- The balance falls by what is outstanding less.
    have hless := hclaimed.outstanding_of_mem hnew hindexes hmem
    have hmoved := hclaimed.moved d.self
    have hfunded := h.funded
    rw [if_pos rfl] at hmoved
    rw [balance] at hfunded
    rw [balance, hclaimed.self]
    omega

theorem step_sound {a : Action} (htree : OnlyDrops keccak256 verify root drops)
    (hindexes : (drops.map Drop.index).Nodup) (h : Sound root drops d claimed)
    (hstep : step keccak256 verify d a = .ok e) : Sound root drops e (recordClaim claimed a) := by
  cases a with
  | claim drop merkleProof => exact claim_sound htree hindexes h hstep
  | transfer caller recipient amount =>
    simp only [step, bind_eq_ok, require_eq_ok, exists_const, pure_eq_ok] at hstep
    obtain ⟨hcaller, token, htransfer, rfl⟩ := hstep
    obtain ⟨hmoved, hsupply⟩ := Erc20.transferInternal_moved htransfer
    refine h.of_token (hmoved.withinSupply hsupply h.ledger) (fun spender => ?_) ?_
    · rw [Erc20.transferInternal_allowances htransfer]
      exact h.unapproved spender
    · have hself := hmoved d.self
      rw [if_neg hcaller.symm] at hself
      exact Nat.le.intro hself.symm
  | transferFrom caller sender recipient amount =>
    simp only [step, bind_eq_ok, require_eq_ok, exists_const, pure_eq_ok] at hstep
    obtain ⟨_, token, htransfer, rfl⟩ := hstep
    obtain ⟨hmoved, hsupply⟩ := Erc20.transferFrom_moved htransfer
    obtain ⟨hunapproved, hle⟩ := Erc20.transferFrom_unapproved htransfer h.unapproved
    exact h.of_token (hmoved.withinSupply hsupply h.ledger) hunapproved hle
  | approve caller spender amount =>
    simp only [step, bind_eq_ok, require_eq_ok, exists_const, pure_eq_ok] at hstep
    obtain ⟨hcaller, token, happrove, rfl⟩ := hstep
    obtain ⟨hbalances, hsupply⟩ := Erc20.approveInternal_balances happrove
    have hbalance (account : Address) : token.balanceOf account = d.token.balanceOf account :=
      congrFun hbalances account
    refine h.of_token ⟨hsupply ▸ h.ledger.supply_lt, fun accounts => ?_⟩
      (Erc20.approveInternal_unapproved happrove h.unapproved fun heq => absurd heq hcaller)
      (hbalance d.self).ge
    rw [hsupply, Finset.sum_congr rfl fun account _ => hbalance account]
    exact h.ledger.le accounts

/-- **Each drop is paid once, and none is kept from it.** A distributor is deployed and holds what the
drops of its tree amount to. Whatever anybody claims and moves then, in any order, a drop that was
claimed is one of the tree and was claimed once, the bits are those of the claimed drops, and a
claim succeeds, and moves exactly the amount, precisely if its proof is valid, the drop was not
claimed before and it is for an account. -/
theorem drops_paid_once {actions : List Action}
    (htree : OnlyDrops keccak256 verify d.merkleRoot drops)
    (hindexes : (drops.map Drop.index).Nodup) (hnew : d.claimedBitMap = Bitmap.empty)
    (hself : d.self ≠ 0) (hledger : d.token.WithinSupply) (hunapproved : d.token.Unapproved d.self)
    (hfunded : (drops.map Drop.amount).sum ≤ d.balance)
    (hrun : runs (step keccak256 verify) d actions = .ok e) :
    ((claims actions).map Drop.index).Nodup ∧ (∀ drop ∈ claims actions, drop ∈ drops) ∧
      (∀ index, e.isClaimed index = true ↔ index ∈ (claims actions).map Drop.index) ∧
      ∀ drop merkleProof,
        (∃ u, claim keccak256 verify e drop merkleProof = .ok u ∧ Claimed e u drop) ↔
          drop ∉ claims actions ∧
            verify merkleProof d.merkleRoot (leaf keccak256 drop) = true ∧ drop.account ≠ 0 := by
  have hfresh (index : Nat) : d.isClaimed index = false := by
    show Bitmap.contains 256 d.claimedBitMap index = false
    rw [hnew]
    exact Bitmap.not_contains_empty
  have hstart : Sound d.merkleRoot drops d [] := by
    refine ⟨hself, rfl, hunapproved, hledger, fun k => ?_, fun index => ?_, List.nodup_nil,
      fun _ hmem => absurd hmem List.not_mem_nil, ?_⟩
    · rw [hnew]
      exact Nat.two_pow_pos 256
    · rw [hfresh]
      exact iff_of_false Bool.false_ne_true List.not_mem_nil
    · refine le_of_eq_of_le (congrArg List.sum (List.map_congr_left fun drop _ => ?_)) hfunded
      rw [hfresh, if_neg Bool.false_ne_true]
  have hend : Sound d.merkleRoot drops e (actions.foldl recordClaim []) :=
    runs_recorded (Sound d.merkleRoot drops)
      (fun _ _ a _ h ht => step_sound (a := a) htree hindexes h ht) hstart hrun
  refine ⟨hend.nodup, hend.mem_drops, hend.bits, fun drop merkleProof => ⟨?_, ?_⟩⟩
  · rintro ⟨u, hclaim, _⟩
    obtain ⟨hunclaimed, hproof, _⟩ := claim_claimed hclaim
    refine ⟨fun hmem => ?_, hend.root ▸ hproof, ?_⟩
    · rw [(hend.bits drop.index).mpr (List.mem_map_of_mem hmem)] at hunclaimed
      cases hunclaimed
    · simp only [claim, bind_eq_ok] at hclaim
      obtain ⟨_, _, _, _, token, htransfer, _⟩ := hclaim
      exact (hend.ledger.transfer_returns_iff.mp ⟨token, htransfer⟩).2.1
  · rintro ⟨hnot, hproof, haccount⟩
    have hmem := htree drop merkleProof hproof
    have hunclaimed : e.isClaimed drop.index = false := by
      rw [← Bool.not_eq_true, hend.bits, List.mem_map]
      rintro ⟨other, hother, hindex⟩
      -- Drops of the tree with one index are the same.
      have hsame := List.inj_on_of_nodup_map hindexes (hend.mem_drops other hother) hmem hindex
      exact hnot (hsame ▸ hother)
    obtain ⟨token, htransfer⟩ := hend.ledger.transfer_returns_iff.mpr ⟨hend.self_ne, haccount,
      (amount_le_outstanding hunclaimed hmem).trans hend.funded⟩
    have hclaim : claim keccak256 verify e drop merkleProof =
        .ok { e.setClaimed drop.index with token := token } := by
      simp only [claim, bind_eq_ok, require_eq_ok, exists_const, pure_eq_ok]
      exact ⟨hunclaimed, hend.root.symm ▸ hproof, token, htransfer, rfl⟩
    exact ⟨_, hclaim, (claim_claimed hclaim).2.2⟩

end Runs

/-! A tree of two drops, whose leaves hash to 2 and 4 and the pair of them to 1. -/

section Example

theorem length_encodePacked (drop : Drop) : (encodePacked drop).length = 84 := by
  rw [encodePacked, List.length_append, List.length_append, Bytes.length_ofNat, Bytes.length_ofNat,
    Bytes.length_ofNat]

/-- What is hashed determines the drop. -/
theorem encodePacked_inj {other : Drop} (h : encodePacked drop = encodePacked other) :
    drop = other := by
  have hlength (width n n' : Nat) : (Bytes.ofNat width n).length = (Bytes.ofNat width n').length := by
    rw [Bytes.length_ofNat, Bytes.length_ofNat]
  rw [encodePacked, encodePacked, List.append_assoc, List.append_assoc] at h
  obtain ⟨hindex, hrest⟩ := List.append_inj h (hlength ..)
  obtain ⟨haccount, hamount⟩ := List.append_inj hrest (hlength ..)
  have hi := congrArg Bytes.toNat hindex
  have ha := congrArg Bytes.toNat haccount
  have hm := congrArg Bytes.toNat hamount
  rw [Bytes.toNat_ofNat_of_lt drop.index_lt, Bytes.toNat_ofNat_of_lt other.index_lt] at hi
  rw [Bytes.toNat_ofNat_of_lt drop.account.isLt, Bytes.toNat_ofNat_of_lt other.account.isLt] at ha
  rw [Bytes.toNat_ofNat_of_lt drop.amount_lt, Bytes.toNat_ofNat_of_lt other.amount_lt] at hm
  have haccount' := BitVec.eq_of_toNat_eq ha
  cases drop
  cases other
  subst hi hm haccount'
  rfl

def exampleDrop : Drop := ⟨300, 77, 5, by decide, by decide⟩

def exampleOther : Drop := ⟨44, 78, 4, by decide, by decide⟩

def exampleKeccak (bytes : Bytes) : Nat :=
  if bytes = encodePacked exampleDrop then 2
  else if bytes = encodePacked exampleOther then 4
  else if bytes = Bytes.ofNat 32 2 ++ Bytes.ofNat 32 4 then 1
  else 3

/-- Pairs are hashed in order of their size. -/
def exampleHash (computedHash proofElement : Nat) : Nat :=
  if computedHash ≤ proofElement then
    exampleKeccak (Bytes.ofNat 32 computedHash ++ Bytes.ofNat 32 proofElement)
  else exampleKeccak (Bytes.ofNat 32 proofElement ++ Bytes.ofNat 32 computedHash)

/-- From the leaf up. -/
def exampleVerify (merkleProof : List Nat) (root leaf : Nat) : Bool :=
  merkleProof.foldl exampleHash leaf == root

theorem pair_ne_encodePacked (x y : Nat) (drop : Drop) :
    Bytes.ofNat 32 x ++ Bytes.ofNat 32 y ≠ encodePacked drop := by
  intro heq
  have hlength := length_encodePacked drop
  rw [← heq, List.length_append, Bytes.length_ofNat, Bytes.length_ofNat] at hlength
  cases hlength

theorem exampleKeccak_pair (x y : Nat) : exampleKeccak (Bytes.ofNat 32 x ++ Bytes.ofNat 32 y) =
    if Bytes.ofNat 32 x ++ Bytes.ofNat 32 y = Bytes.ofNat 32 2 ++ Bytes.ofNat 32 4 then 1 else 3 := by
  rw [exampleKeccak, if_neg (pair_ne_encodePacked x y _), if_neg (pair_ne_encodePacked x y _)]

/-- What is not of the tree stays out of it. -/
theorem exampleHash_three (proofElement : Nat) : exampleHash 3 proofElement = 3 := by
  have hlength (x : Nat) : (Bytes.ofNat 32 x).length = 32 := Bytes.length_ofNat ..
  unfold exampleHash
  split_ifs <;> rw [exampleKeccak_pair, if_neg fun heq => ?_]
  · have hfirst := (List.append_inj heq ((hlength _).trans (hlength _).symm)).1
    exact absurd hfirst (by decide)
  · have hsecond := (List.append_inj heq ((hlength _).trans (hlength _).symm)).2
    exact absurd hsecond (by decide)

theorem exampleTree :
    OnlyDrops exampleKeccak exampleVerify 1 [exampleDrop, exampleOther] := by
  intro drop merkleProof h
  rw [exampleVerify, beq_iff_eq] at h
  by_cases hfirst : encodePacked drop = encodePacked exampleDrop
  · exact List.mem_cons.mpr (.inl (encodePacked_inj hfirst))
  by_cases hsecond : encodePacked drop = encodePacked exampleOther
  · exact List.mem_cons_of_mem _ (List.mem_singleton.mpr (encodePacked_inj hsecond))
  have hleaf : leaf exampleKeccak drop = 3 := by
    rw [leaf, exampleKeccak, if_neg hfirst, if_neg hsecond,
      if_neg (pair_ne_encodePacked 2 4 drop).symm]
  rw [hleaf, List.foldl_fixed' exampleHash_three] at h
  cases h

def exampleDistributor : MerkleDistributor :=
  ⟨100, ⟨fun account => if account = 100 then 9 else 0, fun _ _ => 0, 9⟩, 1, Bitmap.empty⟩

theorem exampleDistributor_ledger : exampleDistributor.token.WithinSupply := by
  refine ⟨by decide, fun accounts => ?_⟩
  show ∑ account ∈ accounts, (if account = 100 then 9 else 0) ≤ 9
  rw [Finset.sum_ite_eq']
  split <;> decide

/-- Each of the two claims with the other one's leaf as its proof. -/
def exampleActions : List Action :=
  [.claim exampleDrop [4], .transfer 77 78 2, .claim exampleOther [2]]

theorem drops_paid_once_example : ∃ e,
    runs (step exampleKeccak exampleVerify) exampleDistributor exampleActions = .ok e ∧
    e.token.balanceOf 77 = 3 ∧ e.token.balanceOf 78 = 6 ∧ e.balance = 0 ∧
    e.isClaimed 300 = true ∧ e.isClaimed 44 = true ∧ e.isClaimed 45 = false := by
  have h : (do
      let e ← runs (step exampleKeccak exampleVerify) exampleDistributor exampleActions
      require (e.token.balanceOf 77 = 3 ∧ e.token.balanceOf 78 = 6 ∧ e.balance = 0) "") =
        .ok () := by
    decide +kernel
  simp only [bind_eq_ok, require_eq_ok] at h
  obtain ⟨e, hrun, hfirst, hsecond, hleft⟩ := h
  obtain ⟨_, _, hbits, _⟩ := drops_paid_once (d := exampleDistributor) exampleTree (by decide) rfl
    (by decide) exampleDistributor_ledger (fun _ => rfl) (by decide) hrun
  refine ⟨e, hrun, hfirst, hsecond, hleft, (hbits 300).mpr (by decide), (hbits 44).mpr (by decide), ?_⟩
  rw [← Bool.not_eq_true, hbits]
  decide

end Example

end MerkleDistributor

end IndexProtocol
