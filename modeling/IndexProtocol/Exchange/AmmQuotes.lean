import IndexProtocol.Exchange.UniswapV2

/-! Quotes and swaps of the splitter.

A swap reads the same pools as a quote in the same state, as it only pulls the input token before,
and each exchange then trades in a state in which its own pools are those that it quoted. So the
swap makes the trades that were quoted: the sender pays the first amount, the recipient gets the
last, and nobody else outside the pools gains or loses a token. -/
namespace IndexProtocol.AmmSplitter
open Evm

variable {κ : Type} {S : AmmSplitter κ} {w w' w₀ : SplitterState κ} {path : List Address}
  {size : Nat} {isExactInput : Bool} {amounts : List Nat} {IsPool : Venue → Address → Prop}
  {sender recipient : Address} {deadline : Nat}

/-! ### Quotes of one exchange -/

theorem headD_zeros (n : Nat) : (List.replicate n 0).headD 0 = 0 := by cases n <;> rfl

theorem getLastD_zeros (n : Nat) : (List.replicate n 0).getLastD 0 = 0 := by
  rw [List.getLastD_eq_getLast?, List.getLast?_replicate]
  split <;> rfl

section Venue
variable {venue : Venue} {quoted : List Nat} {x : Nat}

theorem getTradeInputOrOutput_congr (hpools : w'.pools venue = w.pools venue) :
    getTradeInputOrOutput S w' venue size path isExactInput =
      getTradeInputOrOutput S w venue size path isExactInput := by
  rw [getTradeInputOrOutput, getTradeInputOrOutput, hpools]

/-- A quote has an amount for each token, from or to the size. One that was asked for is for a path
with distinct neighbours. -/
theorem getTradeInputOrOutput_eq_ok (hsound : S.Sound IsPool)
    (h : getTradeInputOrOutput S w venue size path isExactInput = .ok quoted) :
    quoted.length = path.length ∧ (size ≠ 0 → path.IsChain (· ≠ ·)) ∧
      (if isExactInput then quoted.headD 0 else quoted.getLastD 0) = size := by
  unfold getTradeInputOrOutput at h
  split_ifs at h with hsize hexact
  · obtain rfl := pure_eq_ok.mp h
    refine ⟨List.length_replicate, fun hne => absurd hsize hne, ?_⟩
    rw [headD_zeros, getLastD_zeros, ite_self, hsize]
  · obtain ⟨hchain, hlength, hhead⟩ := (hsound.exchange venue).amountsOut h
    exact ⟨hlength, fun _ => hchain, by rw [if_pos hexact, hhead]⟩
  · obtain ⟨hchain, hlength, hlast⟩ := (hsound.exchange venue).amountsIn h
    exact ⟨hlength, fun _ => hchain, by rw [if_neg hexact, hlast]⟩

theorem carried_zeros (IsPool : Address → Prop) (tokens : Address → Erc20)
    (caller recipient : Address) (path : List Address) (n : Nat) :
    Carried IsPool tokens tokens caller recipient path (List.replicate n 0) := by
  intro account _ token
  rw [headD_zeros, getLastD_zeros, ite_self, ite_self]

/-- A trade on an exchange whose pools are those it quoted is the one that was quoted. -/
theorem executeTrade_quoted (hsound : S.Sound IsPool)
    (hquote : getTradeInputOrOutput S w venue size path isExactInput = .ok quoted)
    (hpools : w₀.pools venue = w.pools venue)
    (h : executeTrade S w₀ venue size path recipient deadline isExactInput = .ok (w', x)) :
    x = (if isExactInput then quoted.getLastD 0 else quoted.headD 0) ∧
      Carried (IsPool venue) w₀.tokens w'.tokens S.self recipient path quoted ∧
      ∀ other, other ≠ venue → w'.pools other = w₀.pools other := by
  rw [← getTradeInputOrOutput_congr hpools] at hquote
  unfold getTradeInputOrOutput at hquote
  unfold executeTrade at h
  split_ifs at h hquote with hsize hexact
  · obtain rfl := pure_eq_ok.mp hquote
    obtain ⟨rfl, rfl⟩ := Prod.mk.inj (pure_eq_ok.mp h)
    refine ⟨?_, carried_zeros _ _ _ _ _ _, fun _ _ => rfl⟩
    rw [headD_zeros, getLastD_zeros, ite_self]
  · simp only [bind_eq_ok, pure_eq_ok, Prod.mk.injEq] at h
    obtain ⟨⟨m, executed⟩, hswap, amount, hamount, rfl, rfl⟩ := h
    obtain ⟨hexecuted, hcarried⟩ := (hsound.exchange venue).swapExactTokens hswap
    obtain rfl := Except.ok.inj (hexecuted.symm.trans hquote)
    obtain ⟨_, hlength, _⟩ := (hsound.exchange venue).amountsOut hexecuted
    refine ⟨?_, hcarried, fun _ hne => Function.update_of_ne hne _ _⟩
    rw [if_pos hexact, access_last (hlength ▸ hamount)]
  · simp only [bind_eq_ok, pure_eq_ok, Prod.mk.injEq] at h
    obtain ⟨⟨m, executed⟩, hswap, amount, hamount, rfl, rfl⟩ := h
    obtain ⟨hexecuted, hcarried⟩ := (hsound.exchange venue).swapForExactTokens hswap
    obtain rfl := Except.ok.inj (hexecuted.symm.trans hquote)
    refine ⟨?_, hcarried, fun _ hne => Function.update_of_ne hne _ _⟩
    rw [if_neg hexact, access_first hamount]

end Venue

/-! ### Quotes of the splitter -/

/-- What a quote of the splitter is made of. -/
structure Quoted (S : AmmSplitter κ) (w : SplitterState κ) (path : List Address) (size : Nat)
    (isExactInput : Bool) (amounts : List Nat) (info : TradeInfo)
    (uniAmounts sushiAmounts : List Nat) : Prop where
  length : path.length = 2 ∨ path.length = 3
  sizes : getTradeSizes S w path size = .ok info
  uni : getTradeInputOrOutput S w .uni info.uniSize path isExactInput = .ok uniAmounts
  sushi : getTradeInputOrOutput S w .sushi info.sushiSize path isExactInput = .ok sushiAmounts
  head : SafeMath.add (uniAmounts.headD 0) (sushiAmounts.headD 0) = .ok (amounts.headD 0)
  last : SafeMath.add (uniAmounts.getLastD 0) (sushiAmounts.getLastD 0) = .ok (amounts.getLastD 0)

theorem getAmounts_quoted (hsound : S.Sound IsPool)
    (h : getAmounts S w size path isExactInput = .ok amounts) :
    ∃ info uniAmounts sushiAmounts,
      Quoted S w path size isExactInput amounts info uniAmounts sushiAmounts := by
  simp only [getAmounts, checkPath, bind_eq_ok, require_eq_ok, exists_const] at h
  obtain ⟨hpath, info, hinfo, uniAmounts, huni, sushiAmounts, hsushi, hsum⟩ := h
  obtain ⟨hlength, hget⟩ := mapM_range_eq_ok hsum
  have huniLength := (getTradeInputOrOutput_eq_ok hsound huni).1
  have hsushiLength := (getTradeInputOrOutput_eq_ok hsound hsushi).1
  have hpos : 0 < path.length := by omega
  refine ⟨info, uniAmounts, sushiAmounts, hpath, hinfo, huni, hsushi, ?_, ?_⟩
  · have hhead : amounts[0]? = some (amounts.headD 0) := by
      cases amounts with
      | nil => exact absurd hlength hpos.ne
      | cons => rfl
    obtain ⟨a, ha, b, hb, hadd⟩ : ∃ a, access uniAmounts 0 = .ok a ∧
        ∃ b, access sushiAmounts 0 = .ok b ∧ SafeMath.add a b = .ok (amounts.headD 0) := by
      simpa only [bind_eq_ok] using hget _ _ hhead
    rw [access_first ha, access_first hb]
    exact hadd
  · have hlast : amounts[path.length - 1]? = some (amounts.getLastD 0) := by
      rw [List.getLastD_eq_getLast?, List.getLast?_eq_getElem?, hlength,
        List.getElem?_eq_getElem (by omega), Option.getD_some]
    obtain ⟨a, ha, b, hb, hadd⟩ : ∃ a, access uniAmounts (path.length - 1) = .ok a ∧
        ∃ b, access sushiAmounts (path.length - 1) = .ok b ∧
          SafeMath.add a b = .ok (amounts.getLastD 0) := by
      simpa only [bind_eq_ok] using hget _ _ hlast
    rw [access_last (huniLength ▸ ha), access_last (hsushiLength ▸ hb)]
    exact hadd

/-- The first amounts of an exact input are the trade sizes. -/
theorem Quoted.heads {info : TradeInfo} {uniAmounts sushiAmounts : List Nat}
    (h : Quoted S w path size true amounts info uniAmounts sushiAmounts) (hsound : S.Sound IsPool) :
    uniAmounts.headD 0 = info.uniSize ∧ sushiAmounts.headD 0 = info.sushiSize :=
  ⟨(getTradeInputOrOutput_eq_ok hsound h.uni).2.2, (getTradeInputOrOutput_eq_ok hsound h.sushi).2.2⟩

/-! ### What is done before the trades -/

/-- The trade sizes depend on the pools and on the balances of the token that they are measured in. -/
theorem getTradeSizes_congr (hpools : w'.pools = w.pools)
    (hbalances : ∀ middle, path[1]? = some middle →
      (w'.tokens middle).balances = (w.tokens middle).balances) :
    getTradeSizes S w' path size = getTradeSizes S w path size := by
  have hpool : ∀ (venue : Venue) (paired : Address) {middle : Address}, path[1]? = some middle →
      getTokenBalanceInPair S w' venue paired middle =
        getTokenBalanceInPair S w venue paired middle := by
    intro venue paired middle hmiddle
    rw [getTokenBalanceInPair, getTokenBalanceInPair, hpools, SplitterState.balance,
      SplitterState.balance, Erc20.balanceOf, Erc20.balanceOf, hbalances middle hmiddle]
  rcases path with _ | ⟨input, _ | ⟨middle, _ | ⟨output, rest⟩⟩⟩
  · rfl
  · rfl
  · rw [getTradeSizes, getTradeSizes, hpool .uni _ rfl, hpool .sushi _ rfl]
  · rw [getTradeSizes, getTradeSizes, hpool .uni input rfl, hpool .uni output rfl,
      hpool .sushi input rfl, hpool .sushi output rfl]

theorem checkApproval_frame {venue : Venue} {amount : Nat} {token : Address}
    (h : checkApproval S w venue amount token = .ok w') :
    w'.pools = w.pools ∧ ∀ other, (w'.tokens other).balances = (w.tokens other).balances := by
  unfold checkApproval at h
  split_ifs at h
  · simp only [SplitterState.callToken, bind_eq_ok, pure_eq_ok] at h
    obtain ⟨t, ht, rfl⟩ := h
    refine ⟨rfl, fun other => ?_⟩
    by_cases hother : other = token
    · subst hother
      show (Function.update w.tokens other t other).balances = _
      rw [Function.update_self]
      exact (Erc20.approveInternal_balances ht).1
    · show (Function.update w.tokens token t other).balances = _
      rw [Function.update_of_ne hother]
  · obtain rfl := pure_eq_ok.mp h
    exact ⟨rfl, fun _ => rfl⟩

theorem checkApprovals_frame {uniAmount sushiAmount : Nat} {token : Address}
    (h : checkApprovals S w uniAmount sushiAmount token = .ok w') :
    w'.pools = w.pools ∧ ∀ other, (w'.tokens other).balances = (w.tokens other).balances := by
  rw [checkApprovals, bind_eq_ok] at h
  obtain ⟨w₁, h₁, h₂⟩ := h
  obtain ⟨hpools₁, hbalances₁⟩ := checkApproval_frame h₁
  obtain ⟨hpools₂, hbalances₂⟩ := checkApproval_frame h₂
  exact ⟨hpools₂.trans hpools₁, fun other => (hbalances₂ other).trans (hbalances₁ other)⟩

theorem pull_frame {input : Address} {pulled : Nat}
    (h : w.callToken input (·.transferFrom S.self sender S.self pulled) = .ok w') :
    w'.pools = w.pools ∧ (∀ other, other ≠ input → w'.tokens other = w.tokens other) ∧
      (w.tokens input).Moved (w'.tokens input) sender S.self pulled := by
  simp only [SplitterState.callToken, bind_eq_ok, pure_eq_ok] at h
  obtain ⟨t, ht, rfl⟩ := h
  refine ⟨rfl, fun other hne => Function.update_of_ne hne _ _, ?_⟩
  show (w.tokens input).Moved (Function.update w.tokens input t input) sender S.self pulled
  rw [Function.update_self]
  exact (Erc20.transferFrom_moved ht).1

/-! ### The trades -/

/-- What both swaps do once they know the input amounts: pull them, and trade on both exchanges. -/
def perform (S : AmmSplitter κ) (w : SplitterState κ) (sender : Address) (info : TradeInfo)
    (uniAmount sushiAmount : Nat) (path : List Address) (recipient : Address) (deadline : Nat)
    (isExactInput : Bool) : Result (SplitterState κ × Nat × Nat) := do
  let inputToken ← access path 0
  let w ← w.callToken inputToken (·.transferFrom S.self sender S.self (uniAmount + sushiAmount))
  let w ← checkApprovals S w uniAmount sushiAmount inputToken
  let (w, uniResult) ← executeTrade S w .uni info.uniSize path recipient deadline isExactInput
  let (w, sushiResult) ← executeTrade S w .sushi info.sushiSize path recipient deadline isExactInput
  pure (w, uniResult, sushiResult)

section Quoted
variable {info : TradeInfo} {uniAmounts sushiAmounts : List Nat} {uniResult sushiResult : Nat}

/-- What is traded is what was quoted. -/
theorem Quoted.perform (hsound : S.Sound IsPool)
    (hquoted : Quoted S w path size isExactInput amounts info uniAmounts sushiAmounts)
    (h : perform S w sender info (uniAmounts.headD 0) (sushiAmounts.headD 0) path recipient
      deadline isExactInput = .ok (w', uniResult, sushiResult)) :
    uniResult = (if isExactInput then uniAmounts.getLastD 0 else uniAmounts.headD 0) ∧
      sushiResult = (if isExactInput then sushiAmounts.getLastD 0 else sushiAmounts.headD 0) ∧
      Carried (fun account => ∃ venue, IsPool venue account) w.tokens w'.tokens sender recipient
        path amounts := by
  simp only [AmmSplitter.perform, bind_eq_ok, pure_eq_ok, Prod.mk.injEq] at h
  obtain ⟨input, hinput, w₁, hpull, w₂, happrovals, ⟨w₃, x⟩, huni, ⟨w₄, y⟩, hsushi, rfl, rfl, rfl⟩ := h
  obtain ⟨hpools₁, hother, hmoved⟩ := pull_frame hpull
  obtain ⟨hpools₂, hbalances₂⟩ := checkApprovals_frame happrovals
  have hpools : w₂.pools = w.pools := hpools₂.trans hpools₁
  obtain ⟨hx, huniCarried, hpools₃⟩ :=
    executeTrade_quoted hsound hquoted.uni (congrFun hpools .uni) huni
  have hpools₃ : w₃.pools .sushi = w.pools .sushi :=
    (hpools₃ .sushi (by decide)).trans (congrFun hpools .sushi)
  obtain ⟨hy, hsushiCarried, _⟩ := executeTrade_quoted hsound hquoted.sushi hpools₃ hsushi
  refine ⟨hx, hy, fun account haccount token => ?_⟩
  have hhead : path.head? = some input := access_head? hinput
  obtain ⟨_, hheads⟩ := SafeMath.add_eq_ok.mp hquoted.head
  obtain ⟨_, hlasts⟩ := SafeMath.add_eq_ok.mp hquoted.last
  -- what the account has before the trades, after the first and after the second
  have happroved : (w₂.tokens token).balanceOf account = (w₁.tokens token).balanceOf account :=
    congrFun (hbalances₂ token) account
  have hfirst := huniCarried account (fun hpool => haccount ⟨_, hpool⟩) token
  have hsecond := hsushiCarried account (fun hpool => haccount ⟨_, hpool⟩) token
  simp only [hhead, Option.some.injEq] at hfirst hsecond ⊢
  rw [← hheads, ← hlasts]
  by_cases htoken : input = token
  · subst htoken
    have hpulled := hmoved account
    simp only [and_true] at hfirst hsecond ⊢
    split_ifs at hfirst hsecond hpulled ⊢ <;> omega
  · rw [hother token (Ne.symm htoken)] at happroved
    simp only [htoken, and_false, if_false, Nat.add_zero] at hfirst hsecond ⊢
    split_ifs at hfirst hsecond ⊢ <;> omega

/-- A trade of something is along a path with distinct neighbours. -/
theorem Quoted.chain (hsound : S.Sound IsPool)
    (h : Quoted S w path size isExactInput amounts info uniAmounts sushiAmounts)
    (hsize : size ≠ 0) : path.IsChain (· ≠ ·) := by
  have hsum := getTradeSizes_add h.sizes
  by_cases huni : info.uniSize = 0
  · exact (getTradeInputOrOutput_eq_ok hsound h.sushi).2.1 (by omega)
  · exact (getTradeInputOrOutput_eq_ok hsound h.uni).2.1 huni

/-- The trade sizes stay when the input token is pulled. -/
theorem Quoted.sizes_pulled (hsound : S.Sound IsPool)
    (h : Quoted S w path size isExactInput amounts info uniAmounts sushiAmounts) {input : Address}
    (hinput : access path 0 = .ok input)
    (hpull : w.callToken input (·.transferFrom S.self sender S.self size) = .ok w₀) :
    getTradeSizes S w₀ path size = .ok info := by
  obtain ⟨hpools, hother, hmoved⟩ := pull_frame hpull
  rw [← h.sizes]
  refine getTradeSizes_congr hpools fun middle hmiddle => ?_
  by_cases hsize : size = 0
  · by_cases hsame : middle = input
    · subst hsame
      funext account
      have := hmoved account
      rwa [hsize, ite_self, ite_self] at this
    · rw [hother middle hsame]
  · rw [hother middle]
    rintro rfl
    have hchain := h.chain hsound hsize
    rcases path with _ | ⟨first, _ | ⟨second, rest⟩⟩
    · cases hmiddle
    · cases hmiddle
    · have hne := (List.isChain_cons_cons.mp hchain).1
      exact hne ((Except.ok.inj hinput).trans (Option.some.inj hmiddle).symm)

theorem Quoted.swapExactTokens_iff (hsound : S.Sound IsPool)
    (h : Quoted S w path size true amounts info uniAmounts sushiAmounts) {amountOutMin total : Nat} :
    swapExactTokensForTokens S w sender size amountOutMin path recipient deadline =
        .ok (w', total) ↔
      total = amounts.getLastD 0 ∧ amountOutMin ≤ total ∧ ∃ uniResult sushiResult,
        AmmSplitter.perform S w sender info (uniAmounts.headD 0) (sushiAmounts.headD 0) path
          recipient deadline true = .ok (w', uniResult, sushiResult) := by
  obtain ⟨huni, hsushi⟩ := h.heads hsound
  have hsize : uniAmounts.headD 0 + sushiAmounts.headD 0 = size := by
    rw [huni, hsushi]
    exact getTradeSizes_add h.sizes
  constructor
  · intro hswap
    simp only [swapExactTokensForTokens, bind_eq_ok, pure_eq_ok, Prod.mk.injEq, require_eq_ok,
      exists_const] at hswap
    obtain ⟨_, _, input, hinput, w₁, hpull, info', hinfo, w₂, happrovals, ⟨w₃, x⟩, hfirst, ⟨w₄, y⟩,
      hsecond, totalOutput, hadd, hmin, rfl, rfl⟩ := hswap
    rw [h.sizes_pulled hsound hinput hpull] at hinfo
    obtain rfl := Except.ok.inj hinfo
    have hperform : AmmSplitter.perform S w sender info (uniAmounts.headD 0)
        (sushiAmounts.headD 0) path recipient deadline true = .ok (w₄, x, y) := by
      simp only [AmmSplitter.perform, bind_eq_ok, pure_eq_ok, hsize]
      rw [huni, hsushi]
      exact ⟨input, hinput, w₁, hpull, w₂, happrovals, (w₃, x), hfirst, (w₄, y), hsecond, rfl⟩
    obtain ⟨hx, hy, _⟩ := h.perform hsound hperform
    refine ⟨?_, hmin, x, y, hperform⟩
    rw [hx, hy, if_pos rfl, if_pos rfl, h.last] at hadd
    exact (Except.ok.inj hadd).symm
  · rintro ⟨htotal, hmin, x, y, hperform⟩
    obtain ⟨hx, hy, _⟩ := h.perform hsound hperform
    simp only [AmmSplitter.perform, bind_eq_ok, pure_eq_ok, Prod.mk.injEq, hsize] at hperform
    obtain ⟨input, hinput, w₁, hpull, w₂, happrovals, ⟨w₃, x⟩, hfirst, ⟨w₄, y⟩, hsecond, rfl, rfl,
      rfl⟩ := hperform
    have hadd : SafeMath.add x y = .ok total := by
      dsimp only at hx hy
      rw [hx, hy, if_pos rfl, if_pos rfl, h.last, htotal]
    rw [huni, hsushi] at happrovals
    simp only [swapExactTokensForTokens, checkPath, bind_eq_ok, pure_eq_ok, Prod.mk.injEq,
      require_eq_ok, exists_const]
    exact ⟨h.length, input, hinput, w₁, hpull, info, h.sizes_pulled hsound hinput hpull, w₂,
      happrovals, (w₃, x), hfirst, (w₄, y), hsecond, total, hadd, hmin, rfl, rfl⟩

theorem Quoted.swapForExactTokens_iff (hsound : S.Sound IsPool)
    (h : Quoted S w path size false amounts info uniAmounts sushiAmounts) {amountInMax total : Nat} :
    swapTokensForExactTokens S w sender size amountInMax path recipient deadline =
        .ok (w', total) ↔
      total = amounts.headD 0 ∧ total ≤ amountInMax ∧ ∃ uniResult sushiResult,
        AmmSplitter.perform S w sender info (uniAmounts.headD 0) (sushiAmounts.headD 0) path
          recipient deadline false = .ok (w', uniResult, sushiResult) := by
  have hpath : 0 < path.length := by have := h.length; omega
  have huniLength := (getTradeInputOrOutput_eq_ok hsound h.uni).1
  have hsushiLength := (getTradeInputOrOutput_eq_ok hsound h.sushi).1
  have huni : access uniAmounts 0 = .ok (uniAmounts.headD 0) := access_headD (by omega)
  have hsushi : access sushiAmounts 0 = .ok (sushiAmounts.headD 0) := access_headD (by omega)
  have hsum : uniAmounts.headD 0 + sushiAmounts.headD 0 = amounts.headD 0 :=
    (SafeMath.add_eq_ok.mp h.head).2
  have hcheck : checkPath path = .ok () := require_eq_ok.mpr h.length
  simp only [swapTokensForExactTokens, hcheck, h.sizes, h.uni, h.sushi, huni, hsushi, h.head,
    ok_bind, AmmSplitter.perform, hsum, bind_eq_ok, pure_eq_ok, Prod.mk.injEq, require_eq_ok,
    exists_const]
  constructor
  · rintro ⟨hmax, input, hinput, w₁, hpull, w₂, happrovals, ⟨w₃, x⟩, hfirst, ⟨w₄, y⟩, hsecond, rfl, rfl⟩
    exact ⟨rfl, hmax, x, y, input, hinput, w₁, hpull, w₂, happrovals, (w₃, x), hfirst, (w₄, y),
      hsecond, rfl, rfl, rfl⟩
  · rintro ⟨rfl, hmax, x, y, input, hinput, w₁, hpull, w₂, happrovals, ⟨w₃, x'⟩, hfirst, ⟨w₄, y'⟩,
      hsecond, rfl, rfl, rfl⟩
    exact ⟨hmax, input, hinput, w₁, hpull, w₂, happrovals, (w₃, x'), hfirst, (w₄, y'), hsecond,
      rfl, rfl⟩

end Quoted

/-! ### Quotes are executed -/

/-- Either swap, with the least output amount or the greatest input amount. -/
def swap (S : AmmSplitter κ) (w : SplitterState κ) (isExactInput : Bool) (sender : Address)
    (size bound : Nat) (path : List Address) (recipient : Address) (deadline : Nat) :
    Result (SplitterState κ × Nat) :=
  if isExactInput then swapExactTokensForTokens S w sender size bound path recipient deadline
  else swapTokensForExactTokens S w sender size bound path recipient deadline

/-- What a quote says of a swap in the same state. -/
structure Executes (S : AmmSplitter κ) (IsPool : Venue → Address → Prop) (w : SplitterState κ)
    (path : List Address) (size : Nat) (isExactInput : Bool) (amounts : List Nat) : Prop where
  sizes : ∃ info, getTradeSizes S w path size = .ok info ∧ info.uniSize + info.sushiSize = size
  /-- A swap returns exactly if the first amount is pulled and both trades are made, and the amount
  quoted is within its bound. It then returns that amount. -/
  returned : ∃ info uniAmount sushiAmount, uniAmount + sushiAmount = amounts.headD 0 ∧
    getTradeSizes S w path size = .ok info ∧
    ∀ {sender bound recipient deadline w' total},
      swap S w isExactInput sender size bound path recipient deadline = .ok (w', total) ↔
        total = (if isExactInput then amounts.getLastD 0 else amounts.headD 0) ∧
        (if isExactInput then bound ≤ total else total ≤ bound) ∧
        ∃ uniResult sushiResult, AmmSplitter.perform S w sender info uniAmount sushiAmount path
          recipient deadline isExactInput = .ok (w', uniResult, sushiResult)
  /-- Outside the pools, the sender pays the first amount and the recipient gets the last. -/
  carried : ∀ {sender bound recipient deadline w' total},
    swap S w isExactInput sender size bound path recipient deadline = .ok (w', total) →
      Carried (fun account => ∃ venue, IsPool venue account) w.tokens w'.tokens sender recipient
        path amounts
  kept : ∀ {sender bound recipient deadline w' total},
    swap S w isExactInput sender size bound path recipient deadline = .ok (w', total) →
      sender ≠ S.self → recipient ≠ S.self → ∀ token, w'.balance token S.self = w.balance token S.self

/-- **Quotes equal executions, and the splitter keeps nothing**, unless it is the recipient. -/
theorem getAmounts_executes (hsound : S.Sound IsPool)
    (h : getAmounts S w size path isExactInput = .ok amounts) :
    Executes S IsPool w path size isExactInput amounts := by
  obtain ⟨info, uniAmounts, sushiAmounts, hquoted⟩ := getAmounts_quoted hsound h
  have hreturned : ∀ {sender bound recipient deadline w' total},
      swap S w isExactInput sender size bound path recipient deadline = .ok (w', total) ↔
        total = (if isExactInput then amounts.getLastD 0 else amounts.headD 0) ∧
        (if isExactInput then bound ≤ total else total ≤ bound) ∧
        ∃ uniResult sushiResult, AmmSplitter.perform S w sender info (uniAmounts.headD 0)
          (sushiAmounts.headD 0) path recipient deadline isExactInput =
            .ok (w', uniResult, sushiResult) := by
    intro sender bound recipient deadline w' total
    cases isExactInput with
    | true => exact hquoted.swapExactTokens_iff hsound
    | false => exact hquoted.swapForExactTokens_iff hsound
  have hcarried : ∀ {sender bound recipient deadline w' total},
      swap S w isExactInput sender size bound path recipient deadline = .ok (w', total) →
        Carried (fun account => ∃ venue, IsPool venue account) w.tokens w'.tokens sender recipient
          path amounts := by
    intro sender bound recipient deadline w' total hswap
    obtain ⟨_, _, _, _, hperform⟩ := hreturned.mp hswap
    exact (hquoted.perform hsound hperform).2.2
  refine ⟨⟨info, hquoted.sizes, getTradeSizes_add hquoted.sizes⟩, ⟨info, _, _,
    (SafeMath.add_eq_ok.mp hquoted.head).2, hquoted.sizes, hreturned⟩, hcarried, ?_⟩
  intro sender bound recipient deadline w' total hswap hsender hrecipient token
  have hself := hcarried hswap S.self (fun hpool => hpool.elim hsound.self) token
  rwa [if_neg fun hand => hsender hand.1.symm, if_neg fun hand => hrecipient hand.1.symm] at hself

/-! ### A swap of ten -/

/-- A splitter at address 5, with routers at 3 and 4 and one pool of each exchange. -/
def exampleSplitter : AmmSplitter UniswapV2.Pools :=
  UniswapV2.splitter 5
    (fun venue token0 token1 =>
      if token0 = 10 ∧ token1 = 11 then
        if venue = .uni then 1000 else 2000
      else 3000)
    (fun
      | .uni => 3
      | .sushi => 4)

theorem exampleSplitter_sound : exampleSplitter.Sound (fun venue => UniswapV2.IsPool
    fun token0 token1 =>
      if token0 = 10 ∧ token1 = 11 then
        if venue = .uni then 1000 else 2000
      else 3000) := by
  refine UniswapV2.splitter_sound fun venue token0 token1 => ?_
  split_ifs <;> decide

/-- The exchanges have a thousand each of the tokens 10 and 11, and account 7 has ten to trade. -/
def exampleState : SplitterState UniswapV2.Pools where
  tokens token :=
    { Erc20.empty with
      balances := fun account =>
        if account = 1000 ∨ account = 2000 then 1000
        else if account = 7 ∧ token = 10 then 10
        else 0
      allowances := fun owner spender => if owner = 7 ∧ spender = 5 then 10 else 0 }
  pools _ :=
    ⟨fun token0 token1 => if token0 = 10 ∧ token1 = 11 then some ⟨1000, 1000⟩ else none, 0⟩

theorem getAmounts_executes_example :
    ∃ w' total, swap exampleSplitter exampleState true 7 10 8 [10, 11] 8 0 = .ok (w', total) ∧
      total = 8 ∧ w'.balance 11 5 = exampleState.balance 11 5 := by
  have hquote : getAmounts exampleSplitter exampleState 10 [10, 11] true = .ok [10, 8] := by
    decide +kernel
  have hexecutes := getAmounts_executes exampleSplitter_sound hquote
  have hok : (swap exampleSplitter exampleState true 7 10 8 [10, 11] 8 0).toBool = true := by
    decide +kernel
  cases hswap : swap exampleSplitter exampleState true 7 10 8 [10, 11] 8 0 with
  | error reason =>
    rw [hswap] at hok
    cases hok
  | ok result =>
    obtain ⟨_, _, _, _, _, hreturned⟩ := hexecutes.returned
    exact ⟨result.1, result.2, rfl, (hreturned.mp hswap).1,
      hexecutes.kept hswap (by decide) (by decide) 11⟩

/-- The splitter as the recipient gains what it trades for. -/
theorem swap_to_splitter :
    getAmounts exampleSplitter exampleState 10 [10, 11] true = .ok [10, 8] ∧
      ((swap exampleSplitter exampleState true 7 10 8 [10, 11] 5 0).map
        fun result => result.1.balance 11 5) = .ok 8 ∧
      exampleState.balance 11 5 = 0 := by
  decide +kernel

end IndexProtocol.AmmSplitter
