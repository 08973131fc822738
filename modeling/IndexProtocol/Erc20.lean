import IndexProtocol.ArrayUtils
import Mathlib.Logic.Function.Basic

/-! The ERC20 token.

A SetToken is one, and its components are others. A transfer is described by
`Moved`: what leaves one account arrives at another, and nothing else changes,
also where the two accounts are the same. -/
namespace IndexProtocol
open Evm

structure Erc20 where
  balances : Address → Nat
  allowances : Address → Address → Nat
  totalSupply : Nat

namespace Erc20

/-- The token as deployed, before anything is minted. -/
def empty : Erc20 := ⟨fun _ => 0, fun _ _ => 0, 0⟩

def balanceOf (t : Erc20) (account : Address) : Nat := t.balances account

def allowance (t : Erc20) (owner spender : Address) : Nat := t.allowances owner spender

/-- The internal transfer, from any account. -/
def transferInternal (t : Erc20) (sender recipient : Address) (amount : Nat) : Result Erc20 := do
  require (sender ≠ 0) "ERC20: transfer from the zero address"
  require (recipient ≠ 0) "ERC20: transfer to the zero address"
  let senderBalance ←
    SafeMath.subOr "ERC20: transfer amount exceeds balance" (t.balances sender) amount
  let balances := Function.update t.balances sender senderBalance
  let recipientBalance ← SafeMath.add (balances recipient) amount
  pure { t with balances := Function.update balances recipient recipientBalance }

def mint (t : Erc20) (account : Address) (amount : Nat) : Result Erc20 := do
  require (account ≠ 0) "ERC20: mint to the zero address"
  let totalSupply ← SafeMath.add t.totalSupply amount
  let balance ← SafeMath.add (t.balances account) amount
  pure { t with totalSupply := totalSupply, balances := Function.update t.balances account balance }

def burn (t : Erc20) (account : Address) (amount : Nat) : Result Erc20 := do
  require (account ≠ 0) "ERC20: burn from the zero address"
  let balance ← SafeMath.subOr "ERC20: burn amount exceeds balance" (t.balances account) amount
  let totalSupply ← SafeMath.sub t.totalSupply amount
  pure { t with totalSupply := totalSupply, balances := Function.update t.balances account balance }

/-- The internal approval, of any owner. -/
def approveInternal (t : Erc20) (owner spender : Address) (amount : Nat) : Result Erc20 := do
  require (owner ≠ 0) "ERC20: approve from the zero address"
  require (spender ≠ 0) "ERC20: approve to the zero address"
  pure { t with
    allowances := Function.update t.allowances owner
      (Function.update (t.allowances owner) spender amount) }

def transfer (t : Erc20) (caller recipient : Address) (amount : Nat) : Result Erc20 :=
  t.transferInternal caller recipient amount

def approve (t : Erc20) (caller spender : Address) (amount : Nat) : Result Erc20 :=
  t.approveInternal caller spender amount

def transferFrom (t : Erc20) (caller sender recipient : Address) (amount : Nat) : Result Erc20 := do
  let t ← t.transferInternal sender recipient amount
  let allowance ←
    SafeMath.subOr "ERC20: transfer amount exceeds allowance" (t.allowances sender caller) amount
  t.approveInternal sender caller allowance

/-! ### Transfers between balances -/

/-- `amount` left `sender` for `recipient` and every other balance stayed. -/
def Moved (t t' : Erc20) (sender recipient : Address) (amount : Nat) : Prop :=
  ∀ account, t'.balanceOf account + (if account = sender then amount else 0) =
    t.balanceOf account + if account = recipient then amount else 0

variable {t t' : Erc20} {sender recipient account : Address} {amount : Nat}

theorem Moved.of_ne (h : Moved t t' sender recipient amount) (hs : account ≠ sender)
    (hr : account ≠ recipient) : t'.balanceOf account = t.balanceOf account := by
  simpa [hs, hr] using h account

theorem Moved.at_sender (h : Moved t t' sender recipient amount) (hne : sender ≠ recipient) :
    t'.balanceOf sender + amount = t.balanceOf sender := by
  simpa [hne] using h sender

theorem Moved.at_recipient (h : Moved t t' sender recipient amount) (hne : sender ≠ recipient) :
    t'.balanceOf recipient = t.balanceOf recipient + amount := by
  simpa [hne.symm] using h recipient

theorem Moved.zero (t : Erc20) (sender recipient : Address) : Moved t t sender recipient 0 := by
  intro account
  simp

theorem transferInternal_moved (h : t.transferInternal sender recipient amount = .ok t') :
    Moved t t' sender recipient amount ∧ t'.totalSupply = t.totalSupply := by
  simp only [transferInternal, bind_eq_ok, require_eq_ok, SafeMath.subOr_eq_ok, SafeMath.add_eq_ok,
    pure_eq_ok, exists_const] at h
  obtain ⟨_, _, _, ⟨hle, rfl⟩, _, ⟨_, rfl⟩, rfl⟩ := h
  refine ⟨fun account => ?_, rfl⟩
  simp only [balanceOf, Function.update_apply]
  split_ifs <;> simp_all

/-- An account that holds the amount does not lack it. -/
theorem transferInternal_funded (h : amount ≤ t.balanceOf sender) :
    t.transferInternal sender recipient amount ≠
      .error "ERC20: transfer amount exceeds balance" := by
  have hle : ¬t.balances sender < amount := not_lt.mpr h
  simp only [transferInternal, ne_eq, bind_eq_error, require_eq_error, SafeMath.subOr_eq_error,
    SafeMath.add_eq_error, pure_ne_error, hle, String.reduceEq, and_false, false_and, or_false,
    exists_false, not_false_eq_true]

theorem approveInternal_balances {spender : Address}
    (h : t.approveInternal sender spender amount = .ok t') :
    t'.balances = t.balances ∧ t'.totalSupply = t.totalSupply := by
  simp only [approveInternal, bind_eq_ok, require_eq_ok, pure_eq_ok, exists_const] at h
  obtain ⟨_, _, rfl⟩ := h
  exact ⟨rfl, rfl⟩

theorem transferFrom_moved {caller : Address}
    (h : t.transferFrom caller sender recipient amount = .ok t') :
    Moved t t' sender recipient amount ∧ t'.totalSupply = t.totalSupply := by
  simp only [transferFrom, bind_eq_ok] at h
  obtain ⟨t₁, h₁, _, _, h₂⟩ := h
  obtain ⟨hmoved, hsupply⟩ := transferInternal_moved h₁
  obtain ⟨hbalances, hsupply'⟩ := approveInternal_balances h₂
  refine ⟨fun account => ?_, hsupply'.trans hsupply⟩
  have := hmoved account
  rwa [show t'.balanceOf account = t₁.balanceOf account from congrFun hbalances account]

theorem mint_eq_ok :
    t.mint account amount = .ok t' ↔ account ≠ 0 ∧ t.totalSupply + amount < uintBound ∧
      t.balances account + amount < uintBound ∧
      { t with
        totalSupply := t.totalSupply + amount
        balances := Function.update t.balances account (t.balances account + amount) } = t' := by
  simp only [mint, bind_eq_ok, require_eq_ok, SafeMath.add_eq_ok, pure_eq_ok, exists_const]
  constructor
  · rintro ⟨hne, _, ⟨h1, rfl⟩, _, ⟨h2, rfl⟩, h⟩
    exact ⟨hne, h1, h2, h⟩
  · rintro ⟨hne, h1, h2, h⟩
    exact ⟨hne, _, ⟨h1, rfl⟩, _, ⟨h2, rfl⟩, h⟩

theorem burn_eq_ok :
    t.burn account amount = .ok t' ↔ account ≠ 0 ∧ amount ≤ t.balances account ∧
      amount ≤ t.totalSupply ∧
      { t with
        totalSupply := t.totalSupply - amount
        balances := Function.update t.balances account (t.balances account - amount) } = t' := by
  simp only [burn, bind_eq_ok, require_eq_ok, SafeMath.subOr_eq_ok, SafeMath.sub_eq_ok, pure_eq_ok,
    exists_const]
  constructor
  · rintro ⟨hne, _, ⟨h1, rfl⟩, _, ⟨h2, rfl⟩, h⟩
    exact ⟨hne, h1, h2, h⟩
  · rintro ⟨hne, h1, h2, h⟩
    exact ⟨hne, _, ⟨h1, rfl⟩, _, ⟨h2, rfl⟩, h⟩

end Erc20

end IndexProtocol
