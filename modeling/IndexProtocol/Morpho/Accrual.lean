import IndexProtocol.Morpho.Reference

/-! Interest, as Morpho accrues it and as its integrators expect it.

Before Morpho changes a debt it adds the interest since the last update to the
totals of the market, with checked additions. `KeepsDebts` is what it documents of
the debt of a caller. The integrator's library computes the same totals ahead of
the call; its additions are not checked, so that totals of more than 128 bits, on
which Morpho reverts, come out too small. -/
namespace IndexProtocol.Morpho
open Evm

/-- An addition of 128 bits that reverts where it overflows. -/
def addUint128 (a b : Nat) : Result Nat := do
  require (a + b < uint128Bound) "arithmetic overflow"
  pure (a + b)

@[simp] theorem addUint128_eq_ok {a b c : Nat} :
    addUint128 a b = .ok c ↔ a + b < uint128Bound ∧ a + b = c := by
  simp [addUint128]

@[simp] theorem toUint128_eq_ok {a b : Nat} : toUint128 a = .ok b ↔ a < uint128Bound ∧ a = b := by
  simp [toUint128]

theorem wrapSub_of_le {a b : Nat} (hle : b ≤ a) (ha : a < uintBound) : wrapSub a b = a - b := by
  have hb : b % uintBound = b := Nat.mod_eq_of_lt (hle.trans_lt ha)
  rw [wrapSub, hb, show a + (uintBound - b) = a - b + uintBound by omega, Nat.add_mod_right]
  exact Nat.mod_eq_of_lt (by omega)

/-! ### The interest as a number -/

namespace MathLib

/-- What one unit earns: the three terms of the expansion, each rounded down. -/
def compounded (x n : Nat) : Nat :=
  let firstTerm := x * n
  let secondTerm := firstTerm * firstTerm / (wad * 2)
  firstTerm + secondTerm + secondTerm * firstTerm / (wad * 3)

theorem wTaylorCompounded_eq_ok {x n c : Nat} (h : wTaylorCompounded x n = .ok c) :
    compounded x n = c := by
  simp only [wTaylorCompounded, bind_eq_ok, SafeMath.mul_eq_ok, SafeMath.add_eq_ok,
    mulDivDown_eq_ok] at h
  obtain ⟨_, ⟨_, rfl⟩, _, ⟨_, _, rfl⟩, _, ⟨_, _, rfl⟩, _, ⟨_, rfl⟩, _, rfl⟩ := h
  rfl

end MathLib

namespace MorphoBlue
variable {μ : Type} (morpho : MorphoBlue μ)

/-- The interest of a total over some seconds. -/
def interestOf (borrowRate elapsed total : Nat) : Nat :=
  total * MathLib.compounded borrowRate elapsed / MathLib.wad

/-- Morpho's own accrual. -/
def accrueInterest (state : μ) (params : MarketParams) (market : Market) (elapsed : Nat) :
    Result Market := do
  let borrowRate ← morpho.borrowRateView state params market
  let factor ← MathLib.wTaylorCompounded borrowRate elapsed
  let interest ← MathLib.wMulDown market.totalBorrowAssets factor
  let interest ← toUint128 interest
  let totalBorrowAssets ← addUint128 market.totalBorrowAssets interest
  let totalSupplyAssets ← addUint128 market.totalSupplyAssets interest
  let accrued := { market with
    totalBorrowAssets := totalBorrowAssets
    totalSupplyAssets := totalSupplyAssets }
  if market.fee ≠ 0 then
    let feeAmount ← MathLib.wMulDown interest market.fee
    let withoutFee ← SafeMath.sub totalSupplyAssets feeAmount
    let shares ← SharesMath.toSharesDown feeAmount withoutFee market.totalSupplyShares
    let shares ← toUint128 shares
    let totalSupplyShares ← addUint128 market.totalSupplyShares shares
    pure { accrued with totalSupplyShares := totalSupplyShares }
  else pure accrued

/-- The market after interest was accrued, as Morpho leaves it. -/
def accruedMarket (state : μ) (timestamp : Nat) (params : MarketParams) : Result Market := do
  let market := morpho.market state (morpho.id params)
  let elapsed ← SafeMath.sub timestamp market.lastUpdate
  if elapsed = 0 then pure market
  else
    let accrued ← (if params.irm ≠ 0 then morpho.accrueInterest state params market elapsed
      else pure market)
    pure { accrued with lastUpdate := timestamp }

/-- What an account owes in a market, in shares. -/
def debtShares (state : μ) (params : MarketParams) (account : Address) : Nat :=
  (morpho.position state (morpho.id params) account).borrowShares

/-- Morpho changes the debt of a caller that acts for itself by what it borrows and repays, and
converts at the totals after interest was accrued. -/
structure KeepsDebts : Prop where
  supplyCollateral : ∀ {assets time caller params tokens tokens' state state'},
    morpho.supplyCollateral assets caller time caller params (tokens, state) = .ok (tokens', state') →
      morpho.debtShares state' params caller = morpho.debtShares state params caller
  withdrawCollateral : ∀ {assets time caller params tokens tokens' state state'},
    morpho.withdrawCollateral assets caller caller time caller params (tokens, state) =
      .ok (tokens', state') →
        morpho.debtShares state' params caller = morpho.debtShares state params caller ∧
        ∃ market, morpho.accruedMarket state time params = .ok market ∧
          morpho.accruedMarket state' time params = .ok market
  borrow : ∀ {assets time caller params tokens tokens' state state'},
    morpho.borrow assets 0 caller caller time caller params (tokens, state) = .ok (tokens', state') →
      morpho.debtShares state params caller < morpho.debtShares state' params caller
  repayAssets : ∀ {assets time caller params tokens tokens' state state'},
    morpho.repay assets 0 caller time caller params (tokens, state) = .ok (tokens', state') →
      ∃ market, morpho.accruedMarket state time params = .ok market ∧
        morpho.debtShares state' params caller + SharesMath.sharesOf assets
          market.totalBorrowAssets market.totalBorrowShares = morpho.debtShares state params caller
  repayShares : ∀ {shares time caller params tokens tokens' state state'},
    caller ≠ morpho.self → 0 < shares →
    morpho.repay 0 shares caller time caller params (tokens, state) = .ok (tokens', state') →
      ∃ market assets, morpho.accruedMarket state time params = .ok market ∧
        SharesMath.toAssetsUp shares market.totalBorrowAssets market.totalBorrowShares = .ok assets ∧
        Paid tokens tokens' caller params.loanToken assets ∧
        morpho.debtShares state' params caller + shares = morpho.debtShares state params caller

/-! ### The expected totals -/

variable {morpho} {state : μ} {timestamp : Nat} {params : MarketParams} {market : Market}

theorem interest_eq {borrowRate elapsed total factor interest : Nat}
    (hfactor : MathLib.wTaylorCompounded borrowRate elapsed = .ok factor)
    (hinterest : MathLib.wMulDown total factor = .ok interest) :
    interestOf borrowRate elapsed total = interest := by
  have hproduct := (MathLib.mulDivDown_eq_ok.mp hinterest).2.2
  rw [interestOf, MathLib.wTaylorCompounded_eq_ok hfactor, hproduct]

/-- What accrual does to the totals: the interest is added, and the borrow shares stay. -/
theorem accrueInterest_eq_ok {elapsed : Nat} {accrued : Market}
    (h : morpho.accrueInterest state params market elapsed = .ok accrued) :
    ∃ borrowRate, morpho.borrowRateView state params market = .ok borrowRate ∧
      accrued.totalBorrowAssets =
        market.totalBorrowAssets + interestOf borrowRate elapsed market.totalBorrowAssets ∧
      accrued.totalBorrowShares = market.totalBorrowShares := by
  simp only [accrueInterest, bind_eq_ok, addUint128_eq_ok, toUint128_eq_ok] at h
  obtain ⟨rate, hrate, factor, hfactor, interest, hinterest, _, ⟨_, rfl⟩, _, ⟨_, rfl⟩, _, ⟨_, rfl⟩,
    h⟩ := h
  refine ⟨rate, hrate, ?_⟩
  rw [interest_eq hfactor hinterest]
  split_ifs at h
  · simp only [bind_eq_ok, pure_eq_ok] at h
    obtain ⟨_, _, _, _, _, _, _, _, _, _, rfl⟩ := h
    exact ⟨rfl, rfl⟩
  · obtain rfl := pure_eq_ok.mp h
    exact ⟨rfl, rfl⟩

/-- Where Morpho accrues, its integrators expect the same. -/
theorem accrue_of_accrueInterest {elapsed : Nat} {accrued : Market}
    (h : morpho.accrueInterest state params market elapsed = .ok accrued) :
    ∃ expected, morpho.accrue state params market elapsed = .ok expected ∧
      expected.totalBorrowAssets = accrued.totalBorrowAssets ∧
      expected.totalBorrowShares = accrued.totalBorrowShares := by
  simp only [accrueInterest, bind_eq_ok, addUint128_eq_ok] at h
  obtain ⟨rate, hrate, factor, hfactor, _, hinterest, interest, hfits, _, ⟨hborrowed, rfl⟩,
    _, ⟨hsupplied, rfl⟩, h⟩ := h
  have hwrap (total : Nat) (htotal : total < uint128Bound) : total % uint128Bound = total :=
    Nat.mod_eq_of_lt htotal
  simp only [accrue, hrate, hfactor, hinterest, hfits, ok_bind, hwrap _ hborrowed, hwrap _ hsupplied]
  by_cases hfee : market.fee ≠ 0
  · rw [if_pos hfee] at h ⊢
    simp only [bind_eq_ok, SafeMath.sub_eq_ok, addUint128_eq_ok, pure_eq_ok] at h
    obtain ⟨feeAmount, hfeeAmount, _, ⟨hle, rfl⟩, shares, hshares, _, hfits', _, ⟨_, rfl⟩, rfl⟩ := h
    have hbound : market.totalSupplyAssets + interest < uintBound :=
      hsupplied.trans (show uint128Bound < uintBound by decide)
    have hfeeShares : feeShares { market with
        totalBorrowAssets := market.totalBorrowAssets + interest
        totalSupplyAssets := market.totalSupplyAssets + interest } interest = toUint128 shares := by
      unfold feeShares
      dsimp only
      rw [hfeeAmount, ok_bind, wrapSub_of_le hle hbound, hshares, ok_bind]
    rw [hfeeShares, hfits', ok_bind]
    exact ⟨_, rfl, rfl, rfl⟩
  · rw [if_neg hfee] at h ⊢
    obtain rfl := pure_eq_ok.mp h
    exact ⟨_, rfl, rfl, rfl⟩

/-- **What integrators expect is what Morpho converts at.** -/
theorem expected_of_accrued (htime : timestamp < uintBound)
    (h : morpho.accruedMarket state timestamp params = .ok market) :
    ∃ expected, morpho.expectedMarketBalances state timestamp params = .ok expected ∧
      expected.totalBorrowAssets = market.totalBorrowAssets ∧
      expected.totalBorrowShares = market.totalBorrowShares := by
  simp only [accruedMarket, bind_eq_ok, SafeMath.sub_eq_ok] at h
  obtain ⟨elapsed, ⟨hle, rfl⟩, h⟩ := h
  simp only [expectedMarketBalances, wrapSub_of_le hle htime]
  by_cases helapsed : timestamp - (morpho.market state (morpho.id params)).lastUpdate = 0
  · rw [if_pos helapsed] at h
    obtain rfl := pure_eq_ok.mp h
    rw [if_neg fun hall => hall.1 helapsed]
    exact ⟨_, rfl, rfl, rfl⟩
  · rw [if_neg helapsed] at h
    obtain ⟨accrued, haccrued, h⟩ := bind_eq_ok.mp h
    obtain rfl := pure_eq_ok.mp h
    by_cases hirm : params.irm ≠ 0
    · rw [if_pos hirm] at haccrued
      by_cases hborrowed : (morpho.market state (morpho.id params)).totalBorrowAssets ≠ 0
      · rw [if_pos ⟨helapsed, hborrowed, hirm⟩]
        obtain ⟨expected, hexpected, hassets, hshares⟩ := accrue_of_accrueInterest haccrued
        exact ⟨expected, hexpected, hassets, hshares⟩
      · -- Without a debt there is no interest, and the library does not ask for the rate.
        rw [if_neg fun hall => hborrowed hall.2.1]
        obtain ⟨_, _, hassets, hshares⟩ := accrueInterest_eq_ok haccrued
        rw [not_not.mp hborrowed, interestOf, Nat.zero_mul, Nat.zero_div] at hassets
        exact ⟨_, rfl, (not_not.mp hborrowed).trans hassets.symm, hshares.symm⟩
    · rw [if_neg hirm] at haccrued
      obtain rfl := pure_eq_ok.mp haccrued
      rw [if_neg fun hall => hirm hall.2.2]
      exact ⟨_, rfl, rfl, rfl⟩

/-- Interest is due. -/
def InterestDue (market : Market) (timestamp : Nat) (params : MarketParams) : Prop :=
  wrapSub timestamp market.lastUpdate ≠ 0 ∧ market.totalBorrowAssets ≠ 0 ∧ params.irm ≠ 0

/-- Where interest is due and the library returns, neither total leaves 128 bits with it. -/
def Unwrapped (morpho : MorphoBlue μ) (state : μ) (timestamp : Nat) (params : MarketParams) : Prop :=
  let market := morpho.market state (morpho.id params)
  ∀ expected borrowRate, InterestDue market timestamp params →
    morpho.expectedMarketBalances state timestamp params = .ok expected →
    morpho.borrowRateView state params market = .ok borrowRate →
    let interest :=
      interestOf borrowRate (wrapSub timestamp market.lastUpdate) market.totalBorrowAssets
    market.totalBorrowAssets + interest < uint128Bound ∧
      market.totalSupplyAssets + interest < uint128Bound

/-- A total kept in 128 bits grows unless it overflows. -/
theorem le_wrapped_iff {total interest : Nat} (hinterest : interest < uint128Bound) :
    total ≤ (total + interest) % uint128Bound ↔ total + interest < uint128Bound := by
  constructor
  · intro hle
    by_contra hoverflow
    by_cases htotal : total < uint128Bound
    · rw [Nat.mod_eq_sub_mod (by omega), Nat.mod_eq_of_lt (by omega)] at hle
      omega
    · have := Nat.mod_lt (total + interest) (show 0 < uint128Bound by decide)
      omega
  · intro hlt
    rw [Nat.mod_eq_of_lt hlt]
    omega

/-- What the library returns where interest is due. -/
theorem expected_due {expected : Market}
    (hdue : InterestDue (morpho.market state (morpho.id params)) timestamp params)
    (h : morpho.expectedMarketBalances state timestamp params = .ok expected) :
    ∃ borrowRate, morpho.borrowRateView state params (morpho.market state (morpho.id params)) =
        .ok borrowRate ∧
      let market := morpho.market state (morpho.id params)
      let interest :=
        interestOf borrowRate (wrapSub timestamp market.lastUpdate) market.totalBorrowAssets
      interest < uint128Bound ∧
        expected.totalBorrowAssets = (market.totalBorrowAssets + interest) % uint128Bound ∧
        expected.totalSupplyAssets = (market.totalSupplyAssets + interest) % uint128Bound := by
  have helapsed : wrapSub timestamp _ ≠ 0 ∧ _ ≠ 0 ∧ params.irm ≠ 0 := hdue
  rw [expectedMarketBalances, if_pos helapsed] at h
  simp only [accrue, bind_eq_ok, toUint128_eq_ok] at h
  obtain ⟨rate, hrate, factor, hfactor, interest, hinterest, _, ⟨hfits, rfl⟩, h⟩ := h
  refine ⟨rate, hrate, ?_⟩
  dsimp only
  rw [interest_eq hfactor hinterest]
  refine ⟨hfits, ?_⟩
  split_ifs at h
  · simp only [bind_eq_ok, pure_eq_ok] at h
    obtain ⟨_, _, rfl⟩ := h
    exact ⟨rfl, rfl⟩
  · obtain rfl := pure_eq_ok.mp h
    exact ⟨rfl, rfl⟩

/-- **The expected totals are not below the stored ones** exactly where they do not wrap. -/
theorem never_below_iff :
    (∀ expected, morpho.expectedMarketBalances state timestamp params = .ok expected →
      (morpho.market state (morpho.id params)).totalBorrowAssets ≤ expected.totalBorrowAssets ∧
      (morpho.market state (morpho.id params)).totalSupplyAssets ≤ expected.totalSupplyAssets) ↔
      Unwrapped morpho state timestamp params := by
  constructor
  · intro hbelow expected rate hdue hexpected hrate
    obtain ⟨rate', hrate', hfits, hborrowed, hsupplied⟩ := expected_due hdue hexpected
    obtain rfl := Except.ok.inj (hrate.symm.trans hrate')
    obtain ⟨hborrow, hsupply⟩ := hbelow expected hexpected
    rw [hborrowed, le_wrapped_iff hfits] at hborrow
    rw [hsupplied, le_wrapped_iff hfits] at hsupply
    exact ⟨hborrow, hsupply⟩
  · intro hunwrapped expected hexpected
    by_cases hdue : InterestDue (morpho.market state (morpho.id params)) timestamp params
    · obtain ⟨rate, hrate, hfits, hborrowed, hsupplied⟩ := expected_due hdue hexpected
      obtain ⟨hborrow, hsupply⟩ := hunwrapped expected rate hdue hexpected hrate
      rw [hborrowed, hsupplied, le_wrapped_iff hfits, le_wrapped_iff hfits]
      exact ⟨hborrow, hsupply⟩
    · rw [expectedMarketBalances] at hexpected
      obtain rfl := pure_eq_ok.mp ((if_neg hdue).symm.trans hexpected)
      exact ⟨le_rfl, le_rfl⟩

/-- Accrued once, a market has nothing more to accrue at that time. -/
theorem accruedMarket_lastUpdate (h : morpho.accruedMarket state timestamp params = .ok market) :
    market.lastUpdate = timestamp := by
  simp only [accruedMarket, bind_eq_ok, SafeMath.sub_eq_ok] at h
  obtain ⟨_, ⟨hle, rfl⟩, h⟩ := h
  by_cases helapsed : timestamp - (morpho.market state (morpho.id params)).lastUpdate = 0
  · rw [if_pos helapsed] at h
    obtain rfl := pure_eq_ok.mp h
    omega
  · rw [if_neg helapsed] at h
    obtain ⟨_, _, h⟩ := bind_eq_ok.mp h
    obtain rfl := pure_eq_ok.mp h
    rfl

theorem accruedMarket_of_lastUpdate (hmarket : morpho.market state (morpho.id params) = market)
    (hupdate : market.lastUpdate = timestamp) :
    morpho.accruedMarket state timestamp params = .ok market := by
  simp [accruedMarket, SafeMath.sub, SafeMath.subOr, hmarket, hupdate, bind, Except.bind, pure,
    Except.pure]

end MorphoBlue

/-! ### A Morpho with interest -/

/-- The reference, asked for a fixed rate by second. -/
def rated (borrowRate : Nat) : MorphoBlue Ledger :=
  { reference with borrowRateView := fun _ _ _ => pure borrowRate }

/-- A call after interest was accrued. -/
def afterAccrual (borrowRate : Nat) (call : Call Ledger) : Call Ledger :=
  fun time caller params (tokens, l) => do
    let market ← (rated borrowRate).accruedMarket l time params
    call time caller params (tokens, l.setMarket (Reference.id params) market)

/-- The reference with interest. Supplying collateral does not accrue it. -/
def accruing (borrowRate : Nat) : MorphoBlue Ledger :=
  { rated borrowRate with
    withdrawCollateral := fun assets onBehalf receiver =>
      afterAccrual borrowRate (Reference.withdrawCollateral assets onBehalf receiver)
    borrow := fun assets shares onBehalf receiver =>
      afterAccrual borrowRate (Reference.borrow assets shares onBehalf receiver)
    repay := fun assets shares onBehalf =>
      afterAccrual borrowRate (Reference.repay assets shares onBehalf) }

section Accruing
variable {borrowRate time : Nat} {caller : Address} {params : MarketParams} {tokens : Tokens}
  {l : Ledger} {call : Call Ledger} {result : Tokens × Ledger}

theorem afterAccrual_eq_ok :
    afterAccrual borrowRate call time caller params (tokens, l) = .ok result ↔
      ∃ market, (accruing borrowRate).accruedMarket l time params = .ok market ∧
        call time caller params (tokens, l.setMarket (Reference.id params) market) = .ok result :=
  bind_eq_ok

@[simp] theorem setMarket_positions (id : BitVec 256) (market : Market) :
    (l.setMarket id market).positions = l.positions := rfl

@[simp] theorem setPosition_markets (id : BitVec 256) (account : Address) (position : Position) :
    (l.setPosition id account position).markets = l.markets := rfl

@[simp] theorem setPosition_same (id : BitVec 256) (account : Address) (position : Position) :
    (l.setPosition id account position).positions id account = position := by
  simp [Ledger.setPosition]

@[simp] theorem setMarket_same (id : BitVec 256) (market : Market) :
    (l.setMarket id market).markets id = market := by
  simp [Ledger.setMarket]

theorem accruing_debtShares :
    (accruing borrowRate).debtShares l params caller =
      (l.positions (Reference.id params) caller).borrowShares := rfl

theorem accruing_market :
    (accruing borrowRate).market l ((accruing borrowRate).id params) = l.markets (Reference.id params) :=
  rfl

end Accruing

theorem accruing_lawful (borrowRate : Nat) : (accruing borrowRate).Lawful := by
  constructor
  · intro assets time caller params tokens tokens' l l' hne h
    have hreference : reference.supplyCollateral assets caller time caller params (tokens, l) =
      .ok (tokens', l') := h
    exact reference_lawful.supplyCollateral hne hreference
  · intro assets time caller params tokens tokens' l l' hne h
    obtain ⟨market, _, h⟩ := afterAccrual_eq_ok.mp h
    have hreference : reference.withdrawCollateral assets caller caller time caller params
      (tokens, l.setMarket (Reference.id params) market) = .ok (tokens', l') := h
    exact reference_lawful.withdrawCollateral hne hreference
  · intro assets time caller params tokens tokens' l l' hne h
    obtain ⟨market, _, h⟩ := afterAccrual_eq_ok.mp h
    have hreference : reference.borrow assets 0 caller caller time caller params
      (tokens, l.setMarket (Reference.id params) market) = .ok (tokens', l') := h
    exact reference_lawful.borrow hne hreference
  · intro assets time caller params tokens tokens' l l' hne h
    obtain ⟨market, _, h⟩ := afterAccrual_eq_ok.mp h
    have hreference : reference.repay assets 0 caller time caller params
      (tokens, l.setMarket (Reference.id params) market) = .ok (tokens', l') := h
    exact reference_lawful.repay hne hreference

/-- It keeps debts as Morpho documents it. -/
theorem accruing_keepsDebts (borrowRate : Nat) : (accruing borrowRate).KeepsDebts := by
  constructor
  · intro assets time caller params tokens tokens' l l' h
    simp only [accruing, rated, reference, Reference.supplyCollateral, bind_eq_ok, pure_eq_ok,
      Prod.mk.injEq] at h
    obtain ⟨_, _, _, _, _, _, rfl, rfl⟩ := h
    simp [accruing_debtShares]
  · intro assets time caller params tokens tokens' l l' h
    obtain ⟨market, hmarket, h⟩ := afterAccrual_eq_ok.mp h
    simp only [Reference.withdrawCollateral, bind_eq_ok, pure_eq_ok, Prod.mk.injEq] at h
    obtain ⟨_, _, _, _, _, _, _, _, _, _, rfl, rfl⟩ := h
    refine ⟨by simp [accruing_debtShares], market, hmarket, ?_⟩
    apply MorphoBlue.accruedMarket_of_lastUpdate
    · simp [accruing_market]
    · exact MorphoBlue.accruedMarket_lastUpdate hmarket
  · intro assets time caller params tokens tokens' l l' h
    obtain ⟨market, hmarket, h⟩ := afterAccrual_eq_ok.mp h
    simp only [Reference.borrow, bind_eq_ok, require_eq_ok, pure_eq_ok, Prod.mk.injEq] at h
    obtain ⟨_, _, _, ⟨hassets, _⟩, _, _, _, _, _, _, rfl, rfl⟩ := h
    have hshares : 0 < assets * (market.totalBorrowShares + SharesMath.virtualShares) ⌈/⌉
        (market.totalBorrowAssets + SharesMath.virtualAssets) := by
      apply Rounding.ceil_pos
      · exact Nat.mul_pos (by omega) (by unfold SharesMath.virtualShares; omega)
      · unfold SharesMath.virtualAssets
        omega
    simp only [accruing_debtShares, setMarket_positions, setPosition_same, setMarket_same]
    omega
  · intro assets time caller params tokens tokens' l l' h
    obtain ⟨market, hmarket, h⟩ := afterAccrual_eq_ok.mp h
    simp only [Reference.repay, bind_eq_ok, require_eq_ok, pure_eq_ok, Prod.mk.injEq,
      SafeMath.sub_eq_ok, setMarket_positions, setMarket_same] at h
    obtain ⟨_, _, _, hinput, ⟨repaid, burned⟩, hrepaid, _, ⟨hle, rfl⟩, _, _, _, _, rfl, rfl⟩ := h
    have hassets : assets ≠ 0 := hinput.elim (fun hzero => absurd rfl hzero.2) And.left
    simp only [hassets, ne_eq, not_false_eq_true, if_true, bind_eq_ok, pure_eq_ok,
      Prod.mk.injEq] at hrepaid
    obtain ⟨_, hburned, rfl, rfl⟩ := hrepaid
    refine ⟨market, hmarket, ?_⟩
    rw [SharesMath.toSharesDown_eq_ok hburned]
    simp only [accruing_debtShares, setMarket_positions, setPosition_same]
    omega
  · intro shares time caller params tokens tokens' l l' hne hshares h
    obtain ⟨market, hmarket, h⟩ := afterAccrual_eq_ok.mp h
    simp only [Reference.repay, bind_eq_ok, require_eq_ok, pure_eq_ok, Prod.mk.injEq,
      SafeMath.sub_eq_ok, setMarket_positions, setMarket_same] at h
    obtain ⟨_, _, _, _, ⟨repaid, burned⟩, hrepaid, _, ⟨hle, rfl⟩, _, _, _, hmoved, rfl, rfl⟩ := h
    simp only [ne_eq, not_true_eq_false, if_false, bind_eq_ok, pure_eq_ok, Prod.mk.injEq] at hrepaid
    obtain ⟨_, hcharged, rfl, rfl⟩ := hrepaid
    refine ⟨market, _, hmarket, hcharged, moveTokens_paid hmoved hne, ?_⟩
    simp only [accruing_debtShares, setMarket_positions, setPosition_same]
    omega

end IndexProtocol.Morpho
