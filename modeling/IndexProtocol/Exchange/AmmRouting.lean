import IndexProtocol.Exchange.UniswapV2

/-! Trades around a missing pair.

The splitter sees that an exchange has no pair for a hop only in the balance of the zero address,
which is what the factory returns then. Where that address has tokens, a part of the trade is for
the exchange that cannot make it, unless the part rounds to nothing. -/
namespace IndexProtocol.AmmSplitter
open Evm PreciseUnitMath

/-- The whole of a trade on one exchange. -/
def TradeInfo.whole (size : Nat) : Venue → TradeInfo
  | .uni => ⟨size, 0⟩
  | .sushi => ⟨0, size⟩

/-- The hops of a path, each with the token that its pool is measured in. -/
def hops : List Address → List (Address × Address)
  | [input, output] => [(input, output)]
  | input :: middle :: output :: _ => [(input, middle), (output, middle)]
  | _ => []

section Pools
variable {κ : Type} (S : AmmSplitter κ) (w : SplitterState κ)

/-- An exchange has no pair for some hop. -/
def Missing (venue : Venue) (path : List Address) : Prop :=
  ∃ hop ∈ hops path, (S.exchange venue).getPair (w.pools venue) hop.1 hop.2 = 0

/-- An exchange has a pair with tokens for each hop. -/
def Liquid (venue : Venue) (path : List Address) : Prop :=
  ∀ hop ∈ hops path, (S.exchange venue).getPair (w.pools venue) hop.1 hop.2 ≠ 0 ∧
    0 < getTokenBalanceInPair S w venue hop.1 hop.2

instance (venue : Venue) (path : List Address) : Decidable (Missing S w venue path) :=
  List.decidableBEx _ (hops path)

instance (venue : Venue) (path : List Address) : Decidable (Liquid S w venue path) :=
  List.decidableBAll _ (hops path)

end Pools

/-- When a trade of one hop goes as a whole to an exchange whose pool is `liquid`, where the zero
address has `stray` tokens. Nothing overflows; and where Uniswap is the one without a pair, the
size times its supposed part is less than one token, where Sushiswap is, there are no stray
tokens. -/
def RoutesOneHop (missing : Venue) (size stray liquid : Nat) : Prop :=
  stray + liquid < uintBound ∧ match missing with
    | .uni => stray * preciseUnit < uintBound ∧
        size * (stray * preciseUnit / (stray + liquid)) < preciseUnit
    | .sushi => liquid * preciseUnit < uintBound ∧
        (size = 0 ∨ stray = 0 ∧ size * preciseUnit < uintBound)

section TwoHops
variable (uniLiqPoolA uniLiqPoolB sushiLiqPoolA sushiLiqPoolB : Nat)

/-- The first two of the three factors of the ratio. -/
def firstHopRatio : Nat :=
  (sushiLiqPoolA + sushiLiqPoolB) * preciseUnit / (uniLiqPoolA + uniLiqPoolB) *
    (uniLiqPoolA * preciseUnit / sushiLiqPoolA)

/-- The ratio of the parts of a trade along two hops. -/
def twoHopRatio : Nat :=
  firstHopRatio uniLiqPoolA uniLiqPoolB sushiLiqPoolA sushiLiqPoolB / preciseUnit *
    (uniLiqPoolB * preciseUnit / sushiLiqPoolB) / preciseUnit

/-- Nothing overflows in it. -/
def TwoHopsFit : Prop :=
  (sushiLiqPoolA + sushiLiqPoolB) * preciseUnit < uintBound ∧
    uniLiqPoolA * preciseUnit < uintBound ∧ uniLiqPoolB * preciseUnit < uintBound ∧
    firstHopRatio uniLiqPoolA uniLiqPoolB sushiLiqPoolA sushiLiqPoolB < uintBound ∧
    firstHopRatio uniLiqPoolA uniLiqPoolB sushiLiqPoolA sushiLiqPoolB / preciseUnit *
      (uniLiqPoolB * preciseUnit / sushiLiqPoolB) < uintBound ∧
    twoHopRatio uniLiqPoolA uniLiqPoolB sushiLiqPoolA sushiLiqPoolB * preciseUnit < uintBound

/-- When a trade of two hops goes as a whole to the other exchange. One of the pools of the exchange
without a pair is empty; or nothing overflows, and where Uniswap is that exchange, the size times
its supposed part is less than one token, where Sushiswap is, there is nothing to trade. -/
def RoutesTwoHops (missing : Venue) (size : Nat) : Prop :=
  match missing with
  | .uni => uniLiqPoolA = 0 ∨ uniLiqPoolB = 0 ∨
      TwoHopsFit uniLiqPoolA uniLiqPoolB sushiLiqPoolA sushiLiqPoolB ∧
        size * (twoHopRatio uniLiqPoolA uniLiqPoolB sushiLiqPoolA sushiLiqPoolB * preciseUnit /
          (twoHopRatio uniLiqPoolA uniLiqPoolB sushiLiqPoolA sushiLiqPoolB + preciseUnit)) <
            preciseUnit
  | .sushi => sushiLiqPoolA = 0 ∨ sushiLiqPoolB = 0 ∨
      size = 0 ∧ TwoHopsFit uniLiqPoolA uniLiqPoolB sushiLiqPoolA sushiLiqPoolB

end TwoHops

/-! ### Parts of a trade -/

section Parts
variable {size percentage : Nat}

theorem ofPercentage_whole_sushi :
    TradeInfo.ofPercentage size percentage = .ok (TradeInfo.whole size .sushi) ↔
      size * percentage < preciseUnit := by
  rw [TradeInfo.ofPercentage_eq_ok, TradeInfo.whole, TradeInfo.mk.injEq]
  constructor
  · rintro ⟨_, _, hzero, _⟩
    exact (Nat.div_eq_zero_iff_lt preciseUnit_pos).mp hzero.symm
  · intro hlt
    have hbound : preciseUnit < uintBound := by decide
    have hzero : size * percentage / preciseUnit = 0 := Nat.div_eq_of_lt hlt
    rw [hzero]
    exact ⟨hlt.trans hbound, Nat.zero_le _, rfl, rfl⟩

/-- A part that is less than the whole leaves something, unless there is nothing to divide. -/
theorem ofPercentage_whole_uni_of_lt (hlt : percentage < preciseUnit) :
    TradeInfo.ofPercentage size percentage = .ok (TradeInfo.whole size .uni) ↔ size = 0 := by
  rw [TradeInfo.ofPercentage_eq_ok, TradeInfo.whole, TradeInfo.mk.injEq]
  constructor
  · rintro ⟨_, _, hsize, _⟩
    by_contra hne
    have hpos : 0 < size := Nat.pos_of_ne_zero hne
    have hpart : size * percentage / preciseUnit < size :=
      (Nat.div_lt_iff_lt_mul preciseUnit_pos).mpr (Nat.mul_lt_mul_of_pos_left hlt hpos)
    exact hpart.ne hsize.symm
  · rintro rfl
    rw [Nat.zero_mul, Nat.zero_div]
    exact ⟨by decide, le_rfl, rfl, rfl⟩

theorem ofPercentage_whole_uni_unit :
    TradeInfo.ofPercentage size preciseUnit = .ok (TradeInfo.whole size .uni) ↔
      size * preciseUnit < uintBound := by
  rw [TradeInfo.ofPercentage_eq_ok, TradeInfo.whole, Nat.mul_div_cancel _ preciseUnit_pos,
    Nat.sub_self]
  exact and_iff_left ⟨le_rfl, rfl⟩

theorem calculateTwoHopRatio_eq_ok {uniA uniB sushiA sushiB ratio : Nat} (hsushiA : 0 < sushiA)
    (hsushiB : 0 < sushiB) (huni : 0 < uniA) :
    calculateTwoHopRatio uniA uniB sushiA sushiB = .ok ratio ↔
      ((sushiA + sushiB) * preciseUnit < uintBound ∧ uniA * preciseUnit < uintBound ∧
        uniB * preciseUnit < uintBound ∧ firstHopRatio uniA uniB sushiA sushiB < uintBound ∧
        firstHopRatio uniA uniB sushiA sushiB / preciseUnit * (uniB * preciseUnit / sushiB) <
          uintBound) ∧ twoHopRatio uniA uniB sushiA sushiB = ratio := by
  simp only [calculateTwoHopRatio, bind_eq_ok, SafeMath.add_eq_ok, preciseDiv_eq_ok,
    preciseMul_eq_ok]
  constructor
  · rintro ⟨_, ⟨_, rfl⟩, _, ⟨_, rfl⟩, _, ⟨hsushi, _, rfl⟩, _, ⟨hfirst, _, rfl⟩, _, ⟨hsecond, _, rfl⟩, _,
      ⟨hboth, rfl⟩, hall, rfl⟩
    exact ⟨⟨hsushi, hfirst, hsecond, hboth, hall⟩, rfl⟩
  · rintro ⟨⟨hsushi, hfirst, hsecond, hboth, hall⟩, rfl⟩
    -- What fits in precise units fits twice without.
    have hunit : 2 ≤ preciseUnit := by decide
    have hA := Nat.mul_le_mul_left uniA hunit
    have hB := Nat.mul_le_mul_left uniB hunit
    have hsum : sushiA + sushiB ≤ (sushiA + sushiB) * preciseUnit :=
      Nat.le_mul_of_pos_right _ preciseUnit_pos
    exact ⟨_, ⟨by omega, rfl⟩, _, ⟨by omega, rfl⟩, _, ⟨hsushi, by omega, rfl⟩, _,
      ⟨hfirst, hsushiA, rfl⟩, _, ⟨hsecond, hsushiB, rfl⟩, _, ⟨hboth, rfl⟩, hall, rfl⟩

theorem twoHopPercentage_eq_ok {uniA uniB sushiA sushiB : Nat} (hsushiA : 0 < sushiA)
    (hsushiB : 0 < sushiB) (huni : 0 < uniA) :
    twoHopPercentage uniA uniB sushiA sushiB = .ok percentage ↔
      TwoHopsFit uniA uniB sushiA sushiB ∧ twoHopRatio uniA uniB sushiA sushiB * preciseUnit /
        (twoHopRatio uniA uniB sushiA sushiB + preciseUnit) = percentage := by
  simp only [twoHopPercentage, bind_eq_ok, SafeMath.add_eq_ok, preciseDiv_eq_ok,
    calculateTwoHopRatio_eq_ok hsushiA hsushiB huni]
  constructor
  · rintro ⟨_, ⟨⟨hsushi, hfirst, hsecond, hboth, hall⟩, rfl⟩, _, ⟨_, rfl⟩, hratio, _, rfl⟩
    exact ⟨⟨hsushi, hfirst, hsecond, hboth, hall, hratio⟩, rfl⟩
  · rintro ⟨⟨hsushi, hfirst, hsecond, hboth, hall, hratio⟩, rfl⟩
    have hunit : 2 ≤ preciseUnit := by decide
    have hsmall : 2 * preciseUnit < uintBound := by decide
    have htwice := Nat.mul_le_mul_left (twoHopRatio uniA uniB sushiA sushiB) hunit
    exact ⟨_, ⟨⟨hsushi, hfirst, hsecond, hboth, hall⟩, rfl⟩, _, ⟨by omega, rfl⟩, hratio,
      Nat.add_pos_right _ preciseUnit_pos, rfl⟩

/-- The part for Uniswap is not the whole. -/
theorem part_lt_whole (ratio : Nat) : ratio * preciseUnit / (ratio + preciseUnit) < preciseUnit := by
  rw [Nat.div_lt_iff_lt_mul (Nat.add_pos_right _ preciseUnit_pos), Nat.mul_comm]
  exact Nat.mul_lt_mul_of_pos_left (Nat.lt_add_of_pos_right preciseUnit_pos) preciseUnit_pos

theorem oneHopPercentage_eq_ok {uni sushi : Nat} :
    oneHopPercentage uni sushi = .ok percentage ↔ uni + sushi < uintBound ∧
      uni * preciseUnit < uintBound ∧ 0 < uni + sushi ∧
        uni * preciseUnit / (uni + sushi) = percentage := by
  simp only [oneHopPercentage, bind_eq_ok, SafeMath.add_eq_ok, preciseDiv_eq_ok]
  constructor
  · rintro ⟨_, ⟨hsum, rfl⟩, h⟩
    exact ⟨hsum, h⟩
  · rintro ⟨hsum, h⟩
    exact ⟨_, ⟨hsum, rfl⟩, h⟩

end Parts

/-! ### Trades as a whole -/

section Routes
variable {size stray liquid : Nat}

theorem routesOneHop_uni (hliquid : 0 < liquid) :
    (do
      let percentage ← oneHopPercentage stray liquid
      TradeInfo.ofPercentage size percentage) = .ok (TradeInfo.whole size .sushi) ↔
      RoutesOneHop .uni size stray liquid := by
  simp only [bind_eq_ok, oneHopPercentage_eq_ok, ofPercentage_whole_sushi, RoutesOneHop]
  constructor
  · rintro ⟨_, ⟨hsum, hmul, _, rfl⟩, hsize⟩
    exact ⟨hsum, hmul, hsize⟩
  · rintro ⟨hsum, hmul, hsize⟩
    exact ⟨_, ⟨hsum, hmul, Nat.add_pos_right _ hliquid, rfl⟩, hsize⟩

/-- The part of the only exchange with a pair is less than the whole where there are stray tokens. -/
theorem part_lt_of_stray (hstray : 0 < stray) :
    liquid * preciseUnit / (liquid + stray) < preciseUnit := by
  rw [Nat.div_lt_iff_lt_mul (Nat.add_pos_right _ hstray), Nat.mul_comm]
  exact Nat.mul_lt_mul_of_pos_left (Nat.lt_add_of_pos_right hstray) preciseUnit_pos

theorem routesOneHop_sushi (hliquid : 0 < liquid) :
    (do
      let percentage ← oneHopPercentage liquid stray
      TradeInfo.ofPercentage size percentage) = .ok (TradeInfo.whole size .uni) ↔
      RoutesOneHop .sushi size stray liquid := by
  simp only [bind_eq_ok, oneHopPercentage_eq_ok, RoutesOneHop, Nat.add_comm stray liquid]
  cases Nat.eq_zero_or_pos stray with
  | inl hzero =>
    subst hzero
    have hpart : liquid * preciseUnit / (liquid + 0) = preciseUnit :=
      Nat.mul_div_cancel_left _ hliquid
    rw [hpart]
    constructor
    · rintro ⟨_, ⟨hsum, hmul, _, rfl⟩, hsize⟩
      exact ⟨hsum, hmul, .inr ⟨rfl, ofPercentage_whole_uni_unit.mp hsize⟩⟩
    · rintro ⟨hsum, hmul, hsize⟩
      refine ⟨_, ⟨hsum, hmul, hliquid, rfl⟩, ofPercentage_whole_uni_unit.mpr ?_⟩
      rcases hsize with rfl | ⟨_, hsize⟩
      · rw [Nat.zero_mul]
        decide
      · exact hsize
  | inr hpos =>
    have hlt : liquid * preciseUnit / (liquid + stray) < preciseUnit := part_lt_of_stray hpos
    constructor
    · rintro ⟨_, ⟨hsum, hmul, _, rfl⟩, hsize⟩
      exact ⟨hsum, hmul, .inl ((ofPercentage_whole_uni_of_lt hlt).mp hsize)⟩
    · rintro ⟨hsum, hmul, hsize | ⟨hzero, _⟩⟩
      · exact ⟨_, ⟨hsum, hmul, Nat.add_pos_left hliquid _, rfl⟩,
          (ofPercentage_whole_uni_of_lt hlt).mpr hsize⟩
      · exact absurd hzero hpos.ne'

end Routes

variable {κ : Type} {S : AmmSplitter κ} {w : SplitterState κ} {path : List Address} {size : Nat}
  {missing : Venue}

/-- When a trade goes as a whole around the exchange that has no pair for some hop. -/
def RoutesAround (S : AmmSplitter κ) (w : SplitterState κ) (missing : Venue) (path : List Address)
    (size : Nat) : Prop :=
  match path with
  | [input, output] => RoutesOneHop missing size (w.balance output 0)
      (getTokenBalanceInPair S w missing.other input output)
  | input :: middle :: output :: _ => RoutesTwoHops
      (getTokenBalanceInPair S w .uni input middle) (getTokenBalanceInPair S w .uni output middle)
      (getTokenBalanceInPair S w .sushi input middle)
      (getTokenBalanceInPair S w .sushi output middle) missing size
  | _ => False

/-- The pool of a missing pair is what the zero address has. -/
theorem getTokenBalanceInPair_missing {input output : Address}
    (h : Missing S w missing [input, output]) :
    getTokenBalanceInPair S w missing input output = w.balance output 0 := by
  obtain ⟨hop, hmem, hzero⟩ := h
  obtain rfl := List.mem_singleton.mp hmem
  rw [getTokenBalanceInPair, hzero]

theorem executeTrade_zero {venue : Venue} {recipient : Address} {deadline : Nat}
    {isExactInput : Bool} :
    executeTrade S w venue 0 path recipient deadline isExactInput = .ok (w, 0) := if_pos rfl

theorem TradeInfo.whole_size (venue : Venue) : (TradeInfo.whole size venue.other).size venue = 0 := by
  cases venue <;> rfl

theorem oneHop_routes_iff {input output : Address} (hmissing : Missing S w missing [input, output])
    (hliquid : Liquid S w missing.other [input, output]) :
    getTradeSizes S w [input, output] size = .ok (TradeInfo.whole size missing.other) ↔
      RoutesAround S w missing [input, output] size := by
  have hstray := getTokenBalanceInPair_missing hmissing
  have hpos := (hliquid _ (List.mem_singleton_self _)).2
  cases missing with
  | uni =>
    rw [getTradeSizes, hstray]
    exact routesOneHop_uni hpos
  | sushi =>
    rw [getTradeSizes, hstray]
    exact routesOneHop_sushi hpos

theorem twoHops_routes_iff {input middle output : Address} {rest : List Address}
    (hliquid : Liquid S w missing.other (input :: middle :: output :: rest)) :
    getTradeSizes S w (input :: middle :: output :: rest) size =
        .ok (TradeInfo.whole size missing.other) ↔
      RoutesAround S w missing (input :: middle :: output :: rest) size := by
  have hposA := (hliquid (input, middle) List.mem_cons_self).2
  have hposB := (hliquid (output, middle) (List.mem_cons_of_mem _ (List.mem_singleton_self _))).2
  rw [getTradeSizes, RoutesAround]
  cases missing with
  | uni =>
    change 0 < getTokenBalanceInPair S w .sushi input middle at hposA
    change 0 < getTokenBalanceInPair S w .sushi output middle at hposB
    have hsushi : ¬(getTokenBalanceInPair S w .sushi input middle = 0 ∨
        getTokenBalanceInPair S w .sushi output middle = 0) :=
      not_or.mpr ⟨hposA.ne', hposB.ne'⟩
    dsimp only
    rw [RoutesTwoHops, ← or_assoc]
    split_ifs with huni
    · exact iff_of_true rfl (.inl huni)
    · have huniA := Nat.pos_of_ne_zero (not_or.mp huni).1
      simp only [bind_eq_ok, twoHopPercentage_eq_ok hposA hposB huniA, ofPercentage_whole_sushi,
        Venue.other, huni, false_or]
      constructor
      · rintro ⟨_, ⟨hfit, rfl⟩, hsize⟩
        exact ⟨hfit, hsize⟩
      · rintro ⟨hfit, hsize⟩
        exact ⟨_, ⟨hfit, rfl⟩, hsize⟩
  | sushi =>
    change 0 < getTokenBalanceInPair S w .uni input middle at hposA
    have huni : ¬(getTokenBalanceInPair S w .uni input middle = 0 ∨
        getTokenBalanceInPair S w .uni output middle = 0) :=
      not_or.mpr ⟨hposA.ne', hposB.ne'⟩
    dsimp only
    rw [RoutesTwoHops, ← or_assoc]
    split_ifs with hsushi
    · exact iff_of_true rfl (.inl hsushi)
    · have hsushiA := Nat.pos_of_ne_zero (not_or.mp hsushi).1
      have hsushiB := Nat.pos_of_ne_zero (not_or.mp hsushi).2
      simp only [bind_eq_ok, twoHopPercentage_eq_ok hsushiA hsushiB hposA, Venue.other, hsushi,
        false_or]
      constructor
      · rintro ⟨_, ⟨hfit, rfl⟩, hsize⟩
        exact ⟨(ofPercentage_whole_uni_of_lt (part_lt_whole _)).mp hsize, hfit⟩
      · rintro ⟨hsize, hfit⟩
        exact ⟨_, ⟨hfit, rfl⟩, (ofPercentage_whole_uni_of_lt (part_lt_whole _)).mpr hsize⟩

/-- **Around a missing pair.** Where one exchange has no pair for some hop and the other has a pair
with tokens for each, the whole of a trade is for the other exchange exactly if what the zero
address has of the measured token does not count; then the exchange without a pair is skipped. -/
theorem getTradeSizes_routes_iff (hmissing : Missing S w missing path)
    (hliquid : Liquid S w missing.other path) :
    (getTradeSizes S w path size = .ok (TradeInfo.whole size missing.other) ↔
      RoutesAround S w missing path size) ∧
    ∀ recipient deadline isExactInput,
      executeTrade S w missing ((TradeInfo.whole size missing.other).size missing) path recipient
        deadline isExactInput = .ok (w, 0) := by
  constructor
  · rcases path with _ | ⟨input, _ | ⟨middle, _ | ⟨output, rest⟩⟩⟩
    · obtain ⟨_, hmem, _⟩ := hmissing
      cases hmem
    · obtain ⟨_, hmem, _⟩ := hmissing
      cases hmem
    · exact oneHop_routes_iff hmissing hliquid
    · exact twoHops_routes_iff hliquid
  · intro recipient deadline isExactInput
    rw [TradeInfo.whole_size, executeTrade_zero]

/-! ### A pair on Sushiswap only -/

/-- A splitter at address 5, with routers at 3 and 4. -/
def splitter : AmmSplitter UniswapV2.Pools :=
  UniswapV2.splitter 5
    (fun
      | .uni => fun token0 token1 => 100 * token0 + token1
      | .sushi => fun token0 token1 => 300 * token0 + token1)
    (fun
      | .uni => 3
      | .sushi => 4)

/-- Tokens 10 and 11, which only Sushiswap has a pair of, with so many stray tokens 11. -/
def onlySushi (stray : Nat) : SplitterState UniswapV2.Pools where
  tokens token :=
    { Erc20.empty with
      balances := fun account =>
        if account = 3011 then 1000
        else if account = 0 ∧ token = 11 then stray
        else 0 }
  pools
    | .uni => ⟨fun _ _ => none, 0⟩
    | .sushi =>
      ⟨fun token0 token1 => if token0 = 10 ∧ token1 = 11 then some ⟨1000, 1000⟩ else none, 0⟩

/-- A trade of 10 is for Sushiswap as a whole where there are no stray tokens. -/
theorem getTradeSizes_routes_iff_example :
    getTradeSizes splitter (onlySushi 0) [10, 11] 10 = .ok ⟨0, 10⟩ := by
  have hroutes : RoutesAround splitter (onlySushi 0) .uni [10, 11] 10 :=
    ⟨by decide +kernel, by decide +kernel, by decide +kernel⟩
  have hmissing : Missing splitter (onlySushi 0) .uni [10, 11] := by decide +kernel
  have hliquid : Liquid splitter (onlySushi 0) .sushi [10, 11] := by decide +kernel
  exact (getTradeSizes_routes_iff hmissing hliquid).1.mpr hroutes

/-- With as many stray tokens as the pool has, half of the trade is for Uniswap, which reverts. -/
theorem getTradeSizes_counts_stray :
    Missing splitter (onlySushi 1000) .uni [10, 11] ∧
      Liquid splitter (onlySushi 1000) .sushi [10, 11] ∧
      getTradeSizes splitter (onlySushi 1000) [10, 11] 10 = .ok ⟨5, 5⟩ ∧
      (executeTrade splitter (onlySushi 1000) .uni 5 [10, 11] 7 0 true).toBool = false := by
  decide +kernel

end IndexProtocol.AmmSplitter
