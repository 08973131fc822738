import IndexProtocol.Exchange.AmmSplitter

/-! The exchange Uniswap V2.

Each two tokens have at most one pair, at an address computed from them, which keeps its reserves.
The router computes the amounts along a path from the reserves, moves the first amount to the
first pair and has each pair send its output to the next one, the last to the recipient. -/
namespace IndexProtocol
open Evm

namespace UniswapV2

structure Reserves where
  reserve0 : Nat
  reserve1 : Nat

/-- The pairs that were created, by their tokens in order, and the time. -/
structure Pools where
  pairs : Address → Address → Option Reserves
  timestamp : Nat

/-! ### The library -/

def sortTokens (tokenA tokenB : Address) : Result (Address × Address) := do
  require (tokenA ≠ tokenB) "UniswapV2Library: IDENTICAL_ADDRESSES"
  let (token0, token1) := if tokenA < tokenB then (tokenA, tokenB) else (tokenB, tokenA)
  require (token0 ≠ 0) "UniswapV2Library: ZERO_ADDRESS"
  pure (token0, token1)

def getReserves (pools : Pools) (tokenA tokenB : Address) : Result (Nat × Nat) := do
  let (token0, token1) ← sortTokens tokenA tokenB
  match pools.pairs token0 token1 with
  | none => revert ""
  | some reserves =>
    pure (if tokenA = token0 then (reserves.reserve0, reserves.reserve1)
      else (reserves.reserve1, reserves.reserve0))

def getAmountOut (amountIn reserveIn reserveOut : Nat) : Result Nat := do
  require (0 < amountIn) "UniswapV2Library: INSUFFICIENT_INPUT_AMOUNT"
  require (0 < reserveIn ∧ 0 < reserveOut) "UniswapV2Library: INSUFFICIENT_LIQUIDITY"
  let amountInWithFee ← SafeMath.mul amountIn 997
  let numerator ← SafeMath.mul amountInWithFee reserveOut
  let scaled ← SafeMath.mul reserveIn 1000
  let denominator ← SafeMath.add scaled amountInWithFee
  pure (numerator / denominator)

def getAmountIn (amountOut reserveIn reserveOut : Nat) : Result Nat := do
  require (0 < amountOut) "UniswapV2Library: INSUFFICIENT_OUTPUT_AMOUNT"
  require (0 < reserveIn ∧ 0 < reserveOut) "UniswapV2Library: INSUFFICIENT_LIQUIDITY"
  let product ← SafeMath.mul reserveIn amountOut
  let numerator ← SafeMath.mul product 1000
  let rest ← SafeMath.sub reserveOut amountOut
  let denominator ← SafeMath.mul rest 997
  let quotient ← Checked.div numerator denominator
  SafeMath.add quotient 1

/-- The amounts of the hops of a path, from an amount of its first token. -/
def amountsForward (pools : Pools) : Nat → List Address → Result (List Nat)
  | amountIn, input :: output :: rest => do
    let (reserveIn, reserveOut) ← getReserves pools input output
    let amountOut ← getAmountOut amountIn reserveIn reserveOut
    let amounts ← amountsForward pools amountOut (output :: rest)
    pure (amountIn :: amounts)
  | amount, _ => pure [amount]

/-- The amounts of the hops of a path, from an amount of its last token. -/
def amountsBackward (pools : Pools) (amount : Nat) : List Address → Result (List Nat)
  | input :: output :: rest => do
    let amounts ← amountsBackward pools amount (output :: rest)
    let (reserveIn, reserveOut) ← getReserves pools input output
    let amountIn ← getAmountIn (amounts.headD 0) reserveIn reserveOut
    pure (amountIn :: amounts)
  | _ => pure [amount]

def getAmountsOut (pools : Pools) (amountIn : Nat) (path : List Address) : Result (List Nat) := do
  require (2 ≤ path.length) "UniswapV2Library: INVALID_PATH"
  amountsForward pools amountIn path

def getAmountsIn (pools : Pools) (amountOut : Nat) (path : List Address) : Result (List Nat) := do
  require (2 ≤ path.length) "UniswapV2Library: INVALID_PATH"
  amountsBackward pools amountOut path

/-! ### Pairs

The address of a pair is the hash `create2` of its tokens in order. -/

section Pairs
variable (create2 : Address → Address → Address)

def pairFor (tokenA tokenB : Address) : Result Address := do
  let (token0, token1) ← sortTokens tokenA tokenB
  pure (create2 token0 token1)

def getPair (pools : Pools) (tokenA tokenB : Address) : Address :=
  match sortTokens tokenA tokenB with
  | .error _ => 0
  | .ok (token0, token1) =>
    match pools.pairs token0 token1 with
    | none => 0
    | some _ => create2 token0 token1

def maxUint112 : Nat := 2 ^ 112 - 1

/-- A transfer that is made only of a positive amount. -/
def transferPositive (m : AmmMarket Pools) (token sender recipient : Address) (amount : Nat) :
    Result (AmmMarket Pools) := do
  if 0 < amount then
    let t ← (m.tokens token).transfer sender recipient amount
    pure { m with tokens := Function.update m.tokens token t }
  else pure m

/-- What came in, beyond the reserves that are left. -/
def amountIn (balance reserve amountOut : Nat) : Nat :=
  if reserve - amountOut < balance then balance - (reserve - amountOut) else 0

/-- The call `swap` of the pair of two tokens. -/
def swap (m : AmmMarket Pools) (token0 token1 : Address) (amount0Out amount1Out : Nat)
    (recipient : Address) : Result (AmmMarket Pools) := do
  match m.pools.pairs token0 token1 with
  | none => revert ""
  | some reserves =>
    let pair := create2 token0 token1
    require (0 < amount0Out ∨ 0 < amount1Out) "UniswapV2: INSUFFICIENT_OUTPUT_AMOUNT"
    require (amount0Out < reserves.reserve0 ∧ amount1Out < reserves.reserve1)
      "UniswapV2: INSUFFICIENT_LIQUIDITY"
    require (recipient ≠ token0 ∧ recipient ≠ token1) "UniswapV2: INVALID_TO"
    let m ← transferPositive m token0 pair recipient amount0Out
    let m ← transferPositive m token1 pair recipient amount1Out
    let balance0 := (m.tokens token0).balanceOf pair
    let balance1 := (m.tokens token1).balanceOf pair
    let amount0In := amountIn balance0 reserves.reserve0 amount0Out
    let amount1In := amountIn balance1 reserves.reserve1 amount1Out
    require (0 < amount0In ∨ 0 < amount1In) "UniswapV2: INSUFFICIENT_INPUT_AMOUNT"
    let scaled0 ← SafeMath.mul balance0 1000
    let fee0 ← SafeMath.mul amount0In 3
    let balance0Adjusted ← SafeMath.sub scaled0 fee0
    let scaled1 ← SafeMath.mul balance1 1000
    let fee1 ← SafeMath.mul amount1In 3
    let balance1Adjusted ← SafeMath.sub scaled1 fee1
    let adjusted ← SafeMath.mul balance0Adjusted balance1Adjusted
    let product ← SafeMath.mul reserves.reserve0 reserves.reserve1
    let scaled ← SafeMath.mul product (1000 ^ 2)
    require (scaled ≤ adjusted) "UniswapV2: K"
    require (balance0 ≤ maxUint112 ∧ balance1 ≤ maxUint112) "UniswapV2: OVERFLOW"
    let pairs := Function.update m.pools.pairs token0
      (Function.update (m.pools.pairs token0) token1 (some ⟨balance0, balance1⟩))
    pure { m with pools := { m.pools with pairs := pairs } }

/-! ### The router -/

/-- Where the pair of a hop sends its output. -/
def nextRecipient (recipient output : Address) : List Address → Result Address
  | [] => pure recipient
  | after :: _ => pairFor create2 output after

/-- The swaps along a path with their amounts. Each pair sends its output to the next pair. -/
def swapHops (m : AmmMarket Pools) (recipient : Address) :
    List Nat → List Address → Result (AmmMarket Pools)
  | _ :: amountOut :: amounts, input :: output :: rest => do
    let (token0, token1) ← sortTokens input output
    let (amount0Out, amount1Out) := if input = token0 then (0, amountOut) else (amountOut, 0)
    let next ← nextRecipient create2 recipient output rest
    let m ← swap create2 m token0 token1 amount0Out amount1Out next
    swapHops m recipient (amountOut :: amounts) (output :: rest)
  | _, _ => pure m

/-- The end of both swaps: the first amount goes to the first pair. -/
def swapAmounts (router : Address) (m : AmmMarket Pools) (sender : Address) (amounts : List Nat)
    (path : List Address) (recipient : Address) : Result (AmmMarket Pools) := do
  let input ← access path 0
  let output ← access path 1
  let pair ← pairFor create2 input output
  let t ← (m.tokens input).transferFrom router sender pair (amounts.headD 0)
  swapHops create2 { m with tokens := Function.update m.tokens input t } recipient amounts path

def swapExactTokensForTokens (router : Address) (m : AmmMarket Pools) (sender : Address)
    (amountIn amountOutMin : Nat) (path : List Address) (recipient : Address) (deadline : Nat) :
    Result (AmmMarket Pools × List Nat) := do
  require (m.pools.timestamp ≤ deadline) "UniswapV2Router: EXPIRED"
  let amounts ← getAmountsOut m.pools amountIn path
  require (amountOutMin ≤ amounts.getLastD 0) "UniswapV2Router: INSUFFICIENT_OUTPUT_AMOUNT"
  let m ← swapAmounts create2 router m sender amounts path recipient
  pure (m, amounts)

def swapTokensForExactTokens (router : Address) (m : AmmMarket Pools) (sender : Address)
    (amountOut amountInMax : Nat) (path : List Address) (recipient : Address) (deadline : Nat) :
    Result (AmmMarket Pools × List Nat) := do
  require (m.pools.timestamp ≤ deadline) "UniswapV2Router: EXPIRED"
  let amounts ← getAmountsIn m.pools amountOut path
  require (amounts.headD 0 ≤ amountInMax) "UniswapV2Router: EXCESSIVE_INPUT_AMOUNT"
  let m ← swapAmounts create2 router m sender amounts path recipient
  pure (m, amounts)

def exchange (router : Address) : AmmExchange Pools where
  router := router
  getPair := getPair create2
  getAmountsOut := getAmountsOut
  getAmountsIn := getAmountsIn
  swapExactTokensForTokens := swapExactTokensForTokens create2 router
  swapTokensForExactTokens := swapTokensForExactTokens create2 router

end Pairs

/-! ### What is quoted is executed -/

section Sound
variable {create2 : Address → Address → Address} {m m' : AmmMarket Pools} {path : List Address}
  {amounts : List Nat}

/-- An address at which there can be a pair. -/
def IsPool (create2 : Address → Address → Address) (account : Address) : Prop :=
  ∃ token0 token1, create2 token0 token1 = account

theorem sortTokens_eq_ok {tokenA tokenB token0 token1 : Address}
    (h : sortTokens tokenA tokenB = .ok (token0, token1)) :
    tokenA ≠ tokenB ∧ ((token0 = tokenA ∧ token1 = tokenB) ∨ (token0 = tokenB ∧ token1 = tokenA)) := by
  simp only [sortTokens, bind_eq_ok, require_eq_ok, exists_const] at h
  obtain ⟨hne, h⟩ := h
  refine ⟨hne, ?_⟩
  split_ifs at h
  all_goals
    obtain ⟨_, hpair⟩ := h
    obtain ⟨rfl, rfl⟩ := Prod.mk.inj (pure_eq_ok.mp hpair)
  · exact .inl ⟨rfl, rfl⟩
  · exact .inr ⟨rfl, rfl⟩

theorem pairFor_isPool {tokenA tokenB pair : Address}
    (h : pairFor create2 tokenA tokenB = .ok pair) : IsPool create2 pair := by
  rw [pairFor, bind_eq_ok] at h
  obtain ⟨⟨token0, token1⟩, _, h⟩ := h
  exact ⟨token0, token1, pure_eq_ok.mp h⟩

theorem getReserves_ne {pools : Pools} {tokenA tokenB : Address} {reserves : Nat × Nat}
    (h : getReserves pools tokenA tokenB = .ok reserves) : tokenA ≠ tokenB := by
  rw [getReserves, bind_eq_ok] at h
  obtain ⟨_, hsort, _⟩ := h
  exact (sortTokens_eq_ok hsort).1

/-- Quotes are for paths with distinct neighbours, and start with the size. -/
theorem amountsForward_eq_ok {pools : Pools} {size : Nat}
    (h : amountsForward pools size path = .ok amounts) (hpath : path ≠ []) :
    path.IsChain (· ≠ ·) ∧ amounts.length = path.length ∧ amounts.headD 0 = size := by
  induction path generalizing size amounts with
  | nil => exact absurd rfl hpath
  | cons input rest ih =>
    cases rest with
    | nil =>
      obtain rfl := pure_eq_ok.mp h
      exact ⟨.singleton _, rfl, rfl⟩
    | cons output rest =>
      simp only [amountsForward, bind_eq_ok, pure_eq_ok] at h
      obtain ⟨_, hreserves, amountOut, _, amounts, hamounts, rfl⟩ := h
      obtain ⟨hchain, hlength, _⟩ := ih hamounts (List.cons_ne_nil _ _)
      exact ⟨.cons_cons (getReserves_ne hreserves) hchain, congrArg (· + 1) hlength, rfl⟩

/-- Backward quotes end with the size. -/
theorem amountsBackward_eq_ok {pools : Pools} {size : Nat}
    (h : amountsBackward pools size path = .ok amounts) (hpath : path ≠ []) :
    path.IsChain (· ≠ ·) ∧ amounts.length = path.length ∧ amounts.getLastD 0 = size := by
  induction path generalizing amounts with
  | nil => exact absurd rfl hpath
  | cons input rest ih =>
    cases rest with
    | nil =>
      obtain rfl := pure_eq_ok.mp h
      exact ⟨.singleton _, rfl, rfl⟩
    | cons output rest =>
      simp only [amountsBackward, bind_eq_ok, pure_eq_ok] at h
      obtain ⟨amounts, hamounts, _, hreserves, amountIn, _, rfl⟩ := h
      obtain ⟨hchain, hlength, hlast⟩ := ih hamounts (List.cons_ne_nil _ _)
      refine ⟨.cons_cons (getReserves_ne hreserves) hchain, congrArg (· + 1) hlength, ?_⟩
      cases amounts with
      | nil => cases hlength
      | cons amount amounts => exact hlast

theorem transferPositive_balanceOf {token sender recipient account other : Address} {amount : Nat}
    (h : transferPositive m token sender recipient amount = .ok m') (hsender : account ≠ sender) :
    m'.pools = m.pools ∧ (m'.tokens other).balanceOf account =
      (m.tokens other).balanceOf account +
        if account = recipient ∧ other = token then amount else 0 := by
  unfold transferPositive at h
  split_ifs at h with hamount
  · simp only [bind_eq_ok, pure_eq_ok] at h
    obtain ⟨t, ht, rfl⟩ := h
    refine ⟨rfl, ?_⟩
    by_cases hother : other = token
    · subst hother
      have hmoved := (Erc20.transferInternal_moved ht).1 account
      rw [if_neg hsender, Nat.add_zero] at hmoved
      simpa only [Function.update_self, and_true] using hmoved
    · show (Function.update m.tokens token t other).balanceOf account = _
      rw [Function.update_of_ne hother, if_neg fun hand => hother hand.2, Nat.add_zero]
  · obtain rfl := pure_eq_ok.mp h
    obtain rfl : amount = 0 := Nat.eq_zero_of_not_pos hamount
    exact ⟨rfl, by rw [ite_self, Nat.add_zero]⟩

/-- A pair sends what is asked of it, and nobody else loses tokens. -/
theorem swap_balanceOf {token0 token1 recipient account other : Address}
    {amount0Out amount1Out : Nat}
    (h : swap create2 m token0 token1 amount0Out amount1Out recipient = .ok m')
    (haccount : account ≠ create2 token0 token1) :
    (m'.tokens other).balanceOf account = (m.tokens other).balanceOf account +
      (if account = recipient ∧ other = token0 then amount0Out else 0) +
        if account = recipient ∧ other = token1 then amount1Out else 0 := by
  unfold swap at h
  split at h
  · cases h
  · simp only [bind_eq_ok, require_eq_ok, exists_const, pure_eq_ok] at h
    obtain ⟨_, _, _, m₀, h₀, m₁, h₁, h⟩ := h
    obtain ⟨_, _, _, _, _, _, _, _, _, _, _, _, _, _, _, _, _, _, _, _, _, _, rfl⟩ := h
    rw [(transferPositive_balanceOf h₁ haccount).2, (transferPositive_balanceOf h₀ haccount).2]

/-- One hop sends its output to the next pair or to the recipient. -/
theorem hop_balanceOf {input output token0 token1 next account : Address}
    {amountOut amount0Out amount1Out : Nat} (token : Address)
    (hsort : sortTokens input output = .ok (token0, token1))
    (hamounts : (if input = token0 then (0, amountOut) else (amountOut, 0)) =
      (amount0Out, amount1Out))
    (h : swap create2 m token0 token1 amount0Out amount1Out next = .ok m')
    (haccount : ¬IsPool create2 account) :
    (m'.tokens token).balanceOf account = (m.tokens token).balanceOf account +
      if account = next ∧ token = output then amountOut else 0 := by
  rw [swap_balanceOf h fun heq => haccount ⟨_, _, heq.symm⟩]
  obtain ⟨hne, ⟨rfl, rfl⟩ | ⟨rfl, rfl⟩⟩ := sortTokens_eq_ok hsort
  · rw [if_pos rfl] at hamounts
    obtain ⟨rfl, rfl⟩ := Prod.mk.inj hamounts
    rw [ite_self, Nat.add_zero]
  · rw [if_neg hne] at hamounts
    obtain ⟨rfl, rfl⟩ := Prod.mk.inj hamounts
    rw [ite_self, Nat.add_zero]

/-- Along a path the recipient gets the last amount. -/
theorem swapHops_balanceOf {recipient account : Address} (token : Address)
    (h : swapHops create2 m recipient amounts path = .ok m') (haccount : ¬IsPool create2 account)
    (hlength : amounts.length = path.length) (hpath : 2 ≤ path.length) :
    (m'.tokens token).balanceOf account = (m.tokens token).balanceOf account +
      if account = recipient ∧ path.getLast? = some token then amounts.getLastD 0 else 0 := by
  induction path generalizing m amounts with
  | nil => exact absurd hpath (by decide)
  | cons input rest ih =>
    match rest, amounts, hlength, hpath with
    | output :: rest, amount :: amountOut :: amounts, hlength, _ =>
      rw [swapHops, bind_eq_ok] at h
      obtain ⟨⟨token0, token1⟩, hsort, h⟩ := h
      dsimp only at h
      generalize hamounts : (if input = token0 then (0, amountOut) else (amountOut, 0)) = outs at h
      obtain ⟨amount0Out, amount1Out⟩ := outs
      simp only [bind_eq_ok] at h
      obtain ⟨next, hnext, m₁, hswap, h⟩ := h
      have hhop := hop_balanceOf token hsort hamounts hswap haccount
      cases rest with
      | nil =>
        obtain rfl := pure_eq_ok.mp hnext
        obtain rfl : amounts = [] := List.eq_nil_of_length_eq_zero (by simpa using hlength)
        obtain rfl : m₁ = m' := pure_eq_ok.mp h
        rw [hhop]
        simp only [List.getLast?_cons_cons, List.getLast?_singleton, Option.some.injEq,
          @eq_comm _ output]
        rfl
      | cons after rest =>
        have hpool : account ≠ next := fun heq => haccount (heq ▸ pairFor_isPool hnext)
        have hrest := ih h (Nat.succ.inj hlength) (by simp)
        rw [hrest, hhop, if_neg fun hand => hpool hand.1, Nat.add_zero]
        rfl

theorem swapAmounts_carried {router sender recipient : Address}
    (h : swapAmounts create2 router m sender amounts path recipient = .ok m')
    (hlength : amounts.length = path.length) (hpath : 2 ≤ path.length) :
    Carried (IsPool create2) m.tokens m'.tokens sender recipient path amounts := by
  simp only [swapAmounts, bind_eq_ok] at h
  obtain ⟨input, hinput, output, _, pair, hpair, t, ht, h⟩ := h
  have hhead : path.head? = some input := access_head? hinput
  intro account haccount token
  have hpool : account ≠ pair := fun heq => haccount (heq ▸ pairFor_isPool hpair)
  have hhops := swapHops_balanceOf token h haccount hlength hpath
  have hmoved := (Erc20.transferFrom_moved ht).1 account
  rw [if_neg hpool, Nat.add_zero] at hmoved
  simp only [hhops, hhead, Option.some.injEq]
  by_cases htoken : input = token
  · subst htoken
    simp only [Function.update_self, and_true]
    omega
  · simp only [Function.update_of_ne (Ne.symm htoken), htoken, and_false, if_false, Nat.add_zero]

theorem getAmountsOut_eq_ok {pools : Pools} {size : Nat}
    (h : getAmountsOut pools size path = .ok amounts) : 2 ≤ path.length ∧
      path.IsChain (· ≠ ·) ∧ amounts.length = path.length ∧ amounts.headD 0 = size := by
  simp only [getAmountsOut, bind_eq_ok, require_eq_ok, exists_const] at h
  refine ⟨h.1, amountsForward_eq_ok h.2 ?_⟩
  rintro rfl
  exact absurd h.1 (by decide)

theorem getAmountsIn_eq_ok {pools : Pools} {size : Nat}
    (h : getAmountsIn pools size path = .ok amounts) : 2 ≤ path.length ∧
      path.IsChain (· ≠ ·) ∧ amounts.length = path.length ∧ amounts.getLastD 0 = size := by
  simp only [getAmountsIn, bind_eq_ok, require_eq_ok, exists_const] at h
  refine ⟨h.1, amountsBackward_eq_ok h.2 ?_⟩
  rintro rfl
  exact absurd h.1 (by decide)

/-- **Uniswap V2 executes what it quotes.** -/
theorem exchange_sound (create2 : Address → Address → Address) (router : Address) :
    (exchange create2 router).Sound (IsPool create2) := by
  refine ⟨fun h => (getAmountsOut_eq_ok h).2, fun h => (getAmountsIn_eq_ok h).2, ?_, ?_⟩
  · intro m m' caller size amountOutMin path recipient deadline amounts h
    have h : swapExactTokensForTokens create2 router m caller size amountOutMin path recipient
      deadline = .ok (m', amounts) := h
    simp only [swapExactTokensForTokens, bind_eq_ok, require_eq_ok, exists_const, pure_eq_ok,
      Prod.mk.injEq] at h
    obtain ⟨_, _, hquote, _, _, hswap, rfl, rfl⟩ := h
    obtain ⟨hpath, _, hlength, _⟩ := getAmountsOut_eq_ok hquote
    exact ⟨hquote, swapAmounts_carried hswap hlength hpath⟩
  · intro m m' caller size amountInMax path recipient deadline amounts h
    have h : swapTokensForExactTokens create2 router m caller size amountInMax path recipient
      deadline = .ok (m', amounts) := h
    simp only [swapTokensForExactTokens, bind_eq_ok, require_eq_ok, exists_const, pure_eq_ok,
      Prod.mk.injEq] at h
    obtain ⟨_, _, hquote, _, _, hswap, rfl, rfl⟩ := h
    obtain ⟨hpath, _, hlength, _⟩ := getAmountsIn_eq_ok hquote
    exact ⟨hquote, swapAmounts_carried hswap hlength hpath⟩

end Sound

/-! ### A splitter between two such exchanges -/

/-- The splitter at an address, with the hash and the router of each exchange. -/
def splitter (self : Address) (create2 : Venue → Address → Address → Address)
    (router : Venue → Address) : AmmSplitter Pools where
  self := self
  exchange venue := exchange (create2 venue) (router venue)

theorem splitter_sound {self : Address} {create2 : Venue → Address → Address → Address}
    {router : Venue → Address} (hself : ∀ venue token0 token1, create2 venue token0 token1 ≠ self) :
    (splitter self create2 router).Sound (fun venue => IsPool (create2 venue)) where
  exchange venue := exchange_sound (create2 venue) (router venue)
  self := by
    rintro venue ⟨token0, token1, heq⟩
    exact hself venue token0 token1 heq

end UniswapV2

end IndexProtocol
