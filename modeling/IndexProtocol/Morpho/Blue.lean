import IndexProtocol.Erc20
import IndexProtocol.Morpho.SharesMath

/-! Morpho Blue, as its integrators see it.

The contract itself is not part of the repository, so it is a parameter: a
`MorphoBlue μ` reads markets and positions from a state of type `μ` and moves
tokens. `Lawful` is what its interface documents of the tokens that the four
calls of a SetToken move. The expected balances of a market, interest included, are computed by the
integrator's own library. -/
namespace IndexProtocol.Morpho
open Evm

structure MarketParams where
  loanToken : Address
  collateralToken : Address
  oracle : Address
  irm : Address
  lltv : Nat
  deriving DecidableEq, Repr

/-- The params of no market. -/
def MarketParams.empty : MarketParams := ⟨0, 0, 0, 0, 0⟩

structure Position where
  supplyShares : Nat
  borrowShares : Nat
  collateral : Nat
  deriving DecidableEq, Repr

structure Market where
  totalSupplyAssets : Nat
  totalSupplyShares : Nat
  totalBorrowAssets : Nat
  totalBorrowShares : Nat
  lastUpdate : Nat
  fee : Nat
  deriving DecidableEq, Repr

/-- The ledgers of all tokens. -/
abbrev Tokens := Address → Erc20

/-- A call of Morpho at a time, by a caller, for a market. -/
abbrev Call (μ : Type) := Nat → Address → MarketParams → Tokens × μ → Result (Tokens × μ)

structure MorphoBlue (μ : Type) where
  self : Address
  /-- The hash of the params. -/
  id : MarketParams → BitVec 256
  market : μ → BitVec 256 → Market
  position : μ → BitVec 256 → Address → Position
  /-- The interest rate model of the params, asked for the rate of a market. -/
  borrowRateView : μ → MarketParams → Market → Result Nat
  supplyCollateral (assets : Nat) (onBehalf : Address) : Call μ
  withdrawCollateral (assets : Nat) (onBehalf receiver : Address) : Call μ
  borrow (assets shares : Nat) (onBehalf receiver : Address) : Call μ
  repay (assets shares : Nat) (onBehalf : Address) : Call μ

/-! ### Tokens moved -/

/-- The account paid the amount of the token, and kept what it has of others. -/
def Paid (before after : Tokens) (account token : Address) (amount : Nat) : Prop :=
  ∀ t, (after t).balanceOf account + (if t = token then amount else 0) =
    (before t).balanceOf account

/-- The account received the amount of the token. -/
def Received (before after : Tokens) (account token : Address) (amount : Nat) : Prop :=
  Paid after before account token amount

/-- A caller that acts for itself pays and receives exactly the assets it names, of tokens without
fees on transfer. -/
structure MorphoBlue.Lawful {μ : Type} (morpho : MorphoBlue μ) : Prop where
  supplyCollateral : ∀ {assets time caller params tokens tokens' state state'},
    caller ≠ morpho.self →
    morpho.supplyCollateral assets caller time caller params (tokens, state) = .ok (tokens', state') →
      Paid tokens tokens' caller params.collateralToken assets
  withdrawCollateral : ∀ {assets time caller params tokens tokens' state state'},
    caller ≠ morpho.self →
    morpho.withdrawCollateral assets caller caller time caller params (tokens, state) =
      .ok (tokens', state') → Received tokens tokens' caller params.collateralToken assets
  borrow : ∀ {assets time caller params tokens tokens' state state'},
    caller ≠ morpho.self →
    morpho.borrow assets 0 caller caller time caller params (tokens, state) = .ok (tokens', state') →
      Received tokens tokens' caller params.loanToken assets
  repay : ∀ {assets time caller params tokens tokens' state state'},
    caller ≠ morpho.self →
    morpho.repay assets 0 caller time caller params (tokens, state) = .ok (tokens', state') →
      Paid tokens tokens' caller params.loanToken assets

/-! ### Expected balances -/

def uint128Bound : Nat := 2 ^ 128

def toUint128 (x : Nat) : Result Nat := do
  require (x < uint128Bound) "MAX_UINT128_EXCEEDED"
  pure x

/-- Unchecked subtraction of 256 bits. -/
def wrapSub (a b : Nat) : Nat := (a + (uintBound - b % uintBound)) % uintBound

namespace MorphoBlue
variable {μ : Type} (morpho : MorphoBlue μ)

/-- The fee's part of the interest, in new supply shares. -/
def feeShares (market : Market) (interest : Nat) : Result Nat := do
  let feeAmount ← MathLib.wMulDown interest market.fee
  let feeShares ← SharesMath.toSharesDown feeAmount (wrapSub market.totalSupplyAssets feeAmount)
    market.totalSupplyShares
  toUint128 feeShares

/-- The market with the interest of `elapsed` seconds added, in fields of 128 bits. -/
def accrue (state : μ) (params : MarketParams) (market : Market) (elapsed : Nat) :
    Result Market := do
  let borrowRate ← morpho.borrowRateView state params market
  let factor ← MathLib.wTaylorCompounded borrowRate elapsed
  let interest ← MathLib.wMulDown market.totalBorrowAssets factor
  let interest ← toUint128 interest
  let accrued := { market with
    totalBorrowAssets := (market.totalBorrowAssets + interest) % uint128Bound
    totalSupplyAssets := (market.totalSupplyAssets + interest) % uint128Bound }
  if market.fee ≠ 0 then
    let shares ← feeShares accrued interest
    pure { accrued with totalSupplyShares := (accrued.totalSupplyShares + shares) % uint128Bound }
  else pure accrued

/-- The market as it would be after accruing interest now. -/
def expectedMarketBalances (state : μ) (timestamp : Nat) (params : MarketParams) :
    Result Market := do
  let market := morpho.market state (morpho.id params)
  let elapsed := wrapSub timestamp market.lastUpdate
  if elapsed ≠ 0 ∧ market.totalBorrowAssets ≠ 0 ∧ params.irm ≠ 0 then
    morpho.accrue state params market elapsed
  else pure market

end MorphoBlue

end IndexProtocol.Morpho
