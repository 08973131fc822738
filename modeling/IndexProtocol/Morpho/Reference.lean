import IndexProtocol.Morpho.Blue

/-! A Morpho without interest.

The smallest Morpho that behaves as its interface documents: shares for assets
rounded against the borrower, checked subtraction, zero amounts rejected. No
interest accrues, a position is never too risky, and a caller acts for itself.
It is lawful, so what is proved of every lawful Morpho is about something, and
runs of it can be computed. -/
namespace IndexProtocol.Morpho
open Evm

structure Ledger where
  markets : BitVec 256 → Market
  positions : BitVec 256 → Address → Position

namespace Ledger

def setMarket (l : Ledger) (id : BitVec 256) (market : Market) : Ledger :=
  { l with markets := Function.update l.markets id market }

def setPosition (l : Ledger) (id : BitVec 256) (account : Address) (position : Position) : Ledger :=
  { l with
    positions := Function.update l.positions id
      (Function.update (l.positions id) account position) }

end Ledger

/-- Transfers in the name of Morpho's caller or of Morpho itself. -/
def moveTokens (tokens : Tokens) (token sender recipient : Address) (amount : Nat) :
    Result Tokens := do
  let t ← (tokens token).transferInternal sender recipient amount
  pure (Function.update tokens token t)

namespace Reference

/-- The address of this Morpho. -/
def self : Address := 500

/-- Tells apart markets of small token addresses. -/
def id (params : MarketParams) : BitVec 256 :=
  BitVec.ofNat 256 (params.loanToken.toNat + 2 ^ 20 * params.collateralToken.toNat)

def supplyCollateral (assets : Nat) (onBehalf : Address) : Call Ledger :=
  fun _ caller params (tokens, l) => do
    require ((l.markets (id params)).lastUpdate ≠ 0) "market not created"
    require (assets ≠ 0) "zero assets"
    let position := l.positions (id params) onBehalf
    let position := { position with collateral := position.collateral + assets }
    let tokens ← moveTokens tokens params.collateralToken caller self assets
    pure (tokens, l.setPosition (id params) onBehalf position)

def withdrawCollateral (assets : Nat) (onBehalf receiver : Address) : Call Ledger :=
  fun _ caller params (tokens, l) => do
    require ((l.markets (id params)).lastUpdate ≠ 0) "market not created"
    require (assets ≠ 0) "zero assets"
    require (caller = onBehalf) "unauthorized"
    let position := l.positions (id params) onBehalf
    let collateral ← SafeMath.sub position.collateral assets
    let tokens ← moveTokens tokens params.collateralToken self receiver assets
    pure (tokens, l.setPosition (id params) onBehalf { position with collateral := collateral })

/-- Borrows assets; the shares are rounded up. -/
def borrow (assets shares : Nat) (onBehalf receiver : Address) : Call Ledger :=
  fun _ caller params (tokens, l) => do
    let market := l.markets (id params)
    require (market.lastUpdate ≠ 0) "market not created"
    require (assets ≠ 0 ∧ shares = 0) "inconsistent input"
    require (caller = onBehalf) "unauthorized"
    let shares := assets * (market.totalBorrowShares + SharesMath.virtualShares) ⌈/⌉
      (market.totalBorrowAssets + SharesMath.virtualAssets)
    let position := l.positions (id params) onBehalf
    let l := l.setPosition (id params) onBehalf
      { position with borrowShares := position.borrowShares + shares }
    let l := l.setMarket (id params)
      { market with
        totalBorrowShares := market.totalBorrowShares + shares
        totalBorrowAssets := market.totalBorrowAssets + assets }
    require (market.totalBorrowAssets + assets ≤ market.totalSupplyAssets) "insufficient liquidity"
    let tokens ← moveTokens tokens params.loanToken self receiver assets
    pure (tokens, l)

/-- Repays assets or shares; shares are rounded down and assets up. -/
def repay (assets shares : Nat) (onBehalf : Address) : Call Ledger :=
  fun _ caller params (tokens, l) => do
    let market := l.markets (id params)
    require (market.lastUpdate ≠ 0) "market not created"
    require (assets = 0 ∧ shares ≠ 0 ∨ assets ≠ 0 ∧ shares = 0) "inconsistent input"
    let (assets, shares) ← (if assets ≠ 0 then do
        let shares ← SharesMath.toSharesDown assets market.totalBorrowAssets market.totalBorrowShares
        pure (assets, shares)
      else do
        let assets ← SharesMath.toAssetsUp shares market.totalBorrowAssets market.totalBorrowShares
        pure (assets, shares))
    let position := l.positions (id params) onBehalf
    let borrowShares ← SafeMath.sub position.borrowShares shares
    let totalBorrowShares ← SafeMath.sub market.totalBorrowShares shares
    let l := l.setPosition (id params) onBehalf { position with borrowShares := borrowShares }
    let l := l.setMarket (id params)
      { market with
        totalBorrowShares := totalBorrowShares
        totalBorrowAssets := market.totalBorrowAssets - assets }
    let tokens ← moveTokens tokens params.loanToken caller self assets
    pure (tokens, l)

end Reference

def reference : MorphoBlue Ledger where
  self := Reference.self
  id := Reference.id
  market := Ledger.markets
  position := Ledger.positions
  borrowRateView := fun _ _ _ => pure 0
  supplyCollateral := Reference.supplyCollateral
  withdrawCollateral := Reference.withdrawCollateral
  borrow := Reference.borrow
  repay := Reference.repay

section Moved
variable {tokens tokens' : Tokens} {token account other : Address} {amount : Nat}

theorem moveTokens_paid (h : moveTokens tokens token account other amount = .ok tokens')
    (hne : account ≠ other) : Paid tokens tokens' account token amount := by
  simp only [moveTokens, bind_eq_ok, pure_eq_ok] at h
  obtain ⟨t, ht, rfl⟩ := h
  intro c
  by_cases hc : c = token
  · subst hc
    simpa using (Erc20.transferInternal_moved ht).1.at_sender hne
  · simp [hc]

theorem moveTokens_received (h : moveTokens tokens token other account amount = .ok tokens')
    (hne : account ≠ other) : Received tokens tokens' account token amount := by
  simp only [moveTokens, bind_eq_ok, pure_eq_ok] at h
  obtain ⟨t, ht, rfl⟩ := h
  intro c
  by_cases hc : c = token
  · subst hc
    simpa using ((Erc20.transferInternal_moved ht).1.at_recipient hne.symm).symm
  · simp [hc]

end Moved

/-- The Morpho without interest is lawful. -/
theorem reference_lawful : reference.Lawful := by
  constructor
  · intro assets time caller params tokens tokens' l l' hne h
    simp only [reference, Reference.supplyCollateral, bind_eq_ok, pure_eq_ok, Prod.mk.injEq] at h
    obtain ⟨_, _, _, _, _, hmoved, rfl, _⟩ := h
    exact moveTokens_paid hmoved hne
  · intro assets time caller params tokens tokens' l l' hne h
    simp only [reference, Reference.withdrawCollateral, bind_eq_ok, pure_eq_ok, Prod.mk.injEq] at h
    obtain ⟨_, _, _, _, _, _, _, _, _, hmoved, rfl, _⟩ := h
    exact moveTokens_received hmoved hne
  · intro assets time caller params tokens tokens' l l' hne h
    simp only [reference, Reference.borrow, bind_eq_ok, pure_eq_ok, Prod.mk.injEq] at h
    obtain ⟨_, _, _, _, _, _, _, _, _, hmoved, rfl, _⟩ := h
    exact moveTokens_received hmoved hne
  · intro assets time caller params tokens tokens' l l' hne h
    simp only [reference, Reference.repay, bind_eq_ok, require_eq_ok, pure_eq_ok, Prod.mk.injEq] at h
    obtain ⟨_, _, _, hinput, repaid, hrepaid, _, _, _, _, _, hmoved, rfl, _⟩ := h
    have hassets : assets ≠ 0 := hinput.elim (fun hzero => absurd rfl hzero.2) And.left
    simp only [hassets, ne_eq, not_false_eq_true, if_true, bind_eq_ok, pure_eq_ok] at hrepaid
    obtain ⟨_, _, rfl⟩ := hrepaid
    exact moveTokens_paid hmoved hne

end IndexProtocol.Morpho
