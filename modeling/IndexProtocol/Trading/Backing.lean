import IndexProtocol.Auction.Bid
import IndexProtocol.Pool

/-! What the SetToken has behind its units.

A token is backed when the balance of the SetToken pays the unit of every share. A unit
that is written for a balance is backed whatever it was before, and a call that leaves the
SetToken alone and takes none of a token leaves that token backed. -/
namespace IndexProtocol
open Evm PreciseUnitMath

namespace World
open AuctionRebalanceModuleV1 (Rewritten)

variable {χ : Type}

/-- The unit that the SetToken has of a token. -/
def unit (w : World χ) (token : Address) : Nat := (w.setToken.defaultRealUnit token).toNat

/-- What the position of a token is worth, rounded down. -/
def notional (w : World χ) (token : Address) : Nat :=
  w.setToken.totalSupply * w.unit token / preciseUnit

/-- The balance pays the unit of every share. -/
def Backed (w : World χ) (token : Address) : Prop :=
  Covered preciseUnit (w.unit token) (w.balance token) w.setToken.totalSupply

instance (w : World χ) (token : Address) : Decidable (w.Backed token) :=
  inferInstanceAs (Decidable (_ ≤ _))

/-- A call that sees a part of the state of the other contracts. -/
def onPart {ρ : Type} (get : χ → ρ) (set : χ → ρ → χ) (w : World χ)
    (call : World ρ → Result (World ρ)) : Result (World χ) := do
  let v ← call ⟨w.setToken, w.tokens, get w.rest⟩
  pure ⟨v.setToken, v.tokens, set w.rest v.rest⟩

variable {w u v : World χ} {token other : Address}

theorem Backed.notional_le (h : w.Backed token) : w.notional token ≤ w.balance token := by
  apply Nat.div_le_of_le_mul
  rw [Nat.mul_comm, Nat.mul_comm preciseUnit]
  exact h

/-! ### Calls that leave the SetToken alone -/

/-- Of the SetToken nothing changed but balances, and none went down but that of the token, by at
most an amount. -/
structure Takes (w v : World χ) (token : Address) (amount : Nat) : Prop where
  setToken : v.setToken = w.setToken
  taken : w.balance token ≤ v.balance token + amount
  others : ∀ other, other ≠ token → w.balance other ≤ v.balance other

namespace Takes
variable {amount : Nat}

theorem trans {amount' : Nat} (h : w.Takes u token amount) (h' : u.Takes v token amount') :
    w.Takes v token (amount + amount') := by
  have htaken := h.taken
  have htaken' := h'.taken
  exact ⟨h'.setToken.trans h.setToken, by omega,
    fun other hne => (h.others other hne).trans (h'.others other hne)⟩

end Takes

theorem SameBut.takes {amount : Nat} (h : w.SameBut v token)
    (htaken : w.balance token ≤ v.balance token + amount) : w.Takes v token amount :=
  ⟨h.setToken, htaken, fun _ hne => (h.balance_of_ne hne).ge⟩

/-- An approval takes nothing. -/
theorem invokeApprove_takes {module spender : Address} {quantity : Nat}
    (h : Invoke.invokeApprove w module token spender quantity = .ok v) : w.Takes v token 0 := by
  obtain ⟨hsame, hkept⟩ := invokeApprove_balance h
  refine hsame.takes ?_
  rw [balance, balance, Erc20.balanceOf, Erc20.balanceOf, hsame.setToken, hkept]
  exact le_rfl

/-! ### Writing a unit -/

/-- Of the SetToken only the position of the token changed, to a new unit but for the rounding of
the multiplier. -/
structure Written (w v : World χ) (token : Address) (newUnit : Nat) : Prop where
  only : w.setToken.OnlyPositions v.setToken
  wellFormed : v.setToken.WellFormed
  tokens : v.tokens = w.tokens
  rest : v.rest = w.rest
  units : ∀ other, other ≠ token → v.unit other = w.unit other
  le : v.unit token ≤ newUnit
  le_step : newUnit ≤ v.unit token + SetToken.unitStep w.setToken.positionMultiplier
  pos : 0 < newUnit → 0 < v.unit token

namespace Written
variable {newUnit : Nat} (h : w.Written v token newUnit)
include h

theorem balance (other : Address) : v.balance other = w.balance other := by
  rw [World.balance, World.balance, h.tokens, h.only.self]

theorem notional (hne : other ≠ token) : v.notional other = w.notional other := by
  rw [World.notional, World.notional, h.units other hne, h.only.totalSupply]

/-- A unit that the balance allows is backed. -/
theorem backed (hnew : Covered preciseUnit newUnit (w.balance token) w.setToken.totalSupply) :
    v.Backed token :=
  hnew.mono (h.balance token).ge h.only.totalSupply.le h.le

theorem backed_of_ne (hne : other ≠ token) (hbacked : w.Backed other) : v.Backed other :=
  hbacked.mono (h.balance other).ge h.only.totalSupply.le (h.units other hne).le

end Written

theorem editDefaultPosition_written {module : Address} {newUnit : Nat}
    (hwf : w.setToken.WellFormed)
    (h : w.callSetToken (fun s => Position.editDefaultPosition s module token newUnit) = .ok v) :
    w.Written v token newUnit := by
  obtain ⟨t, ht, rfl⟩ := callSetToken_eq_ok.mp h
  obtain ⟨honly, hwf', hunits, _, hle, hstep, hpos⟩ :=
    AuctionRebalanceModuleV1.editDefaultPosition_written hwf ht
  refine ⟨honly, hwf', rfl, rfl, fun other hne => ?_, hle, hstep, hpos⟩
  rw [unit, unit, SetToken.defaultRealUnit, SetToken.defaultRealUnit, honly.positionMultiplier,
    hunits other hne]

/-! ### Writing a unit for a balance that changed -/

/-- The unit of the token was written for its balance, which was `before` when the position was
last in step with it. -/
def Recomputed (w v : World χ) (token : Address) (before : Nat) : Prop :=
  ∃ newUnit, w.Written v token newUnit ∧
    Rewritten w.setToken.positionMultiplier w.setToken.totalSupply (w.notional token) before
      (w.balance token) newUnit (v.unit token)

namespace Recomputed
variable {before : Nat}

/-- It is backed, whatever it was before. -/
theorem backed (h : w.Recomputed v token before) : v.Backed token := by
  obtain ⟨newUnit, hwritten, hunit⟩ := h
  exact (show Covered _ _ _ _ from hunit.backed).mono (hwritten.balance token).ge
    hwritten.only.totalSupply.le le_rfl

theorem backed_of (h : w.Recomputed v token before) (hother : other = token ∨ w.Backed other) :
    v.Backed other := by
  by_cases heq : other = token
  · subst heq
    exact h.backed
  · obtain ⟨_, hwritten, _⟩ := h
    exact hwritten.backed_of_ne heq (hother.resolve_left heq)

theorem wellFormed (h : w.Recomputed v token before) : v.setToken.WellFormed := by
  obtain ⟨_, hwritten, _⟩ := h
  exact hwritten.wellFormed

theorem only (h : w.Recomputed v token before) : w.setToken.OnlyPositions v.setToken := by
  obtain ⟨_, hwritten, _⟩ := h
  exact hwritten.only

theorem balance (h : w.Recomputed v token before) (other : Address) :
    v.balance other = w.balance other := by
  obtain ⟨_, hwritten, _⟩ := h
  exact hwritten.balance other

theorem rest (h : w.Recomputed v token before) : v.rest = w.rest := by
  obtain ⟨_, hwritten, _⟩ := h
  exact hwritten.rest

end Recomputed

theorem calculateAndEditDefaultPosition_recomputed {module : Address} {before : Nat}
    (hwf : w.setToken.WellFormed)
    (h : w.callSetToken (fun s => Position.calculateAndEditDefaultPosition s module token
      (w.balance token) w.setToken.totalSupply before) = .ok v) : w.Recomputed v token before := by
  obtain ⟨t, ht, rfl⟩ := callSetToken_eq_ok.mp h
  obtain ⟨honly, hwf', hunits, _, newUnit, hnew⟩ :=
    AuctionRebalanceModuleV1.position_rewritten hwf ht
  refine ⟨newUnit,
    ⟨honly, hwf', rfl, rfl, fun other hne => ?_, hnew.le, hnew.le_step, hnew.pos⟩, hnew⟩
  rw [unit, unit, SetToken.defaultRealUnit, SetToken.defaultRealUnit, honly.positionMultiplier,
    hunits other hne]

/-! ### Conversions -/

/-- Two tokens were exchanged, which left `u`; then the unit of one was written, which left `t`, and
then that of the other. -/
structure Rebalanced (w v : World χ) (one two : Address) (u t : World χ) : Prop where
  setToken : u.setToken = w.setToken
  others : ∀ token, token ≠ one → token ≠ two → w.balance token ≤ u.balance token
  first : u.Recomputed t one (w.balance one)
  second : t.Recomputed v two (w.balance two)

namespace Rebalanced
variable {one two : Address} {t : World χ} (h : w.Rebalanced v one two u t)
include h

theorem wellFormed : v.setToken.WellFormed := h.second.wellFormed

theorem rest : v.rest = u.rest := h.second.rest.trans h.first.rest

/-- Both tokens are backed, and so is every other one that was before. -/
theorem backed (htoken : token = one ∨ token = two ∨ w.Backed token) : v.Backed token := by
  refine h.second.backed_of (or_iff_not_imp_left.mpr fun htwo => ?_)
  refine h.first.backed_of (or_iff_not_imp_left.mpr fun hone => ?_)
  have hbacked : w.Backed token := (htoken.resolve_left hone).resolve_left htwo
  refine hbacked.mono (h.others token hone htwo) ?_ ?_
  · rw [h.setToken]
  · rw [World.unit, World.unit, h.setToken]

end Rebalanced

/-- The edits that trades and bids end with, for the supply and the balances from before them. -/
theorem rebalanced_of_edits {module one two : Address} {supply before before' : Nat} {t : World χ}
    (hwf : w.setToken.WellFormed) (hset : u.setToken = w.setToken)
    (hothers : ∀ token, token ≠ one → token ≠ two → w.balance token ≤ u.balance token)
    (hsupply : supply = w.setToken.totalSupply) (hbefore : before = w.balance one)
    (hbefore' : before' = w.balance two)
    (hfirst : u.callSetToken (fun s => Position.calculateAndEditDefaultPosition s module one
      (u.balance one) supply before) = .ok t)
    (hsecond : t.callSetToken (fun s => Position.calculateAndEditDefaultPosition s module two
      (t.balance two) supply before') = .ok v) : w.Rebalanced v one two u t := by
  subst hsupply hbefore hbefore'
  rw [← hset] at hfirst
  have hone := calculateAndEditDefaultPosition_recomputed (hset ▸ hwf) hfirst
  rw [← hset, ← hone.only.totalSupply] at hsecond
  exact ⟨hset, hothers, hone, calculateAndEditDefaultPosition_recomputed hone.wellFormed hsecond⟩

/-- The units of two tokens were written for their balances, and no other unit changed. -/
structure BothRecomputed (w v : World χ) (one two : Address) (before : Address → Nat) : Prop where
  only : w.setToken.OnlyPositions v.setToken
  wellFormed : v.setToken.WellFormed
  balance : ∀ token, v.balance token = w.balance token
  units : ∀ token, token ≠ one → token ≠ two → v.unit token = w.unit token
  unit : ∀ token, token = one ∨ token = two → ∃ newUnit,
    Rewritten w.setToken.positionMultiplier w.setToken.totalSupply (w.notional token)
      (before token) (w.balance token) newUnit (v.unit token)

theorem BothRecomputed.symm {one two : Address} {before : Address → Nat}
    (h : w.BothRecomputed v one two before) : w.BothRecomputed v two one before :=
  ⟨h.only, h.wellFormed, h.balance, fun token htwo hone => h.units token hone htwo,
    fun token htoken => h.unit token htoken.symm⟩

/-- Of two edits each leaves the token of the other one. -/
theorem Rebalanced.both {one two : Address} {t : World χ} (h : w.Rebalanced v one two u t)
    (hne : one ≠ two) : u.BothRecomputed v one two w.balance := by
  obtain ⟨_, hwritten, hunit⟩ := h.first
  obtain ⟨_, hwritten', hunit'⟩ := h.second
  refine ⟨hwritten.only.trans hwritten'.only, hwritten'.wellFormed,
    fun token => (hwritten'.balance token).trans (hwritten.balance token),
    fun token hone htwo => (hwritten'.units token htwo).trans (hwritten.units token hone),
    fun token htoken => ?_⟩
  cases htoken with
  | inl hone =>
    subst hone
    rw [hwritten'.units _ hne]
    exact ⟨_, hunit⟩
  | inr htwo =>
    subst htwo
    rw [hwritten.only.positionMultiplier, hwritten.only.totalSupply, hwritten.notional hne.symm,
      hwritten.balance] at hunit'
    exact ⟨_, hunit'⟩

/-- Some of one token was given for some of another, and both units were written for it: each is
what the position was worth, less what was given or more what was got, but for the rounding of the
multiplier and another one. -/
structure Converted (w v : World χ) (sent received : Address) (sold bought : Nat) : Prop where
  wellFormed : v.setToken.WellFormed
  only : w.setToken.OnlyPositions v.setToken
  gave : v.balance sent + sold = w.balance sent
  got : v.balance received = w.balance received + bought
  sent_le : v.unit sent * w.setToken.totalSupply ≤ (w.notional sent - sold) * preciseUnit
  sent_lt : 0 < w.setToken.totalSupply → (w.notional sent - sold) * preciseUnit <
    (v.unit sent + SetToken.unitStep w.setToken.positionMultiplier + 1) * w.setToken.totalSupply
  received_le : v.unit received * w.setToken.totalSupply ≤
    (w.notional received + bought) * preciseUnit
  received_lt : 0 < w.setToken.totalSupply → (w.notional received + bought) * preciseUnit <
    (v.unit received + SetToken.unitStep w.setToken.positionMultiplier + 1) *
      w.setToken.totalSupply
  others : ∀ token, token ≠ sent → token ≠ received →
    w.balance token ≤ v.balance token ∧ v.unit token = w.unit token

/-- What is in the SetToken after giving `sold`, without what was not tracked before. -/
theorem tracked_sold {before after notional sold : Nat} (hbacked : notional ≤ before)
    (hsold : after + sold = before) : after - (before - notional) = notional - sold := by
  omega

/-- The same, after getting `bought`. -/
theorem tracked_bought {before after notional bought : Nat} (hbacked : notional ≤ before)
    (hbought : after = before + bought) : after - (before - notional) = notional + bought := by
  omega

/-- A balance that went down by `sold`, and one that went up by `bought`. -/
theorem converted {sent received : Address} {sold bought : Nat} (hsent : w.Backed sent)
    (hreceived : w.Backed received) (hset : u.setToken = w.setToken)
    (hsold : u.balance sent + sold = w.balance sent)
    (hbought : u.balance received = w.balance received + bought)
    (hothers : ∀ token, token ≠ sent → token ≠ received → w.balance token ≤ u.balance token)
    (h : u.BothRecomputed v sent received w.balance) :
    w.Converted v sent received sold bought := by
  have hunit (token : Address) : u.unit token = w.unit token := by
    rw [unit, unit, hset]
  have hnotional (token : Address) : u.notional token = w.notional token := by
    rw [notional, notional, hunit, hset]
  obtain ⟨_, hsentUnit⟩ := h.unit sent (.inl rfl)
  obtain ⟨_, hreceivedUnit⟩ := h.unit received (.inr rfl)
  rw [hnotional, hset] at hsentUnit hreceivedUnit
  have htracked := tracked_sold hsent.notional_le hsold
  have htracked' := tracked_bought hreceived.notional_le hbought
  refine ⟨h.wellFormed, hset ▸ h.only, (congrArg (· + sold) (h.balance sent)).trans hsold,
    (h.balance received).trans hbought, htracked ▸ hsentUnit.credited,
    fun hsupply => htracked ▸ hsentUnit.credited_lt hsupply,
    htracked' ▸ hreceivedUnit.credited,
    fun hsupply => htracked' ▸ hreceivedUnit.credited_lt hsupply,
    fun token hs hr => ⟨?_, ?_⟩⟩
  · rw [h.balance]
    exact hothers token hs hr
  · rw [h.units token hs hr, hunit]

end World

end IndexProtocol
