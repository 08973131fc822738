import IndexProtocol.Trading.TradeModule
import IndexProtocol.Trading.Holdings

/-! A managed SetToken, with all the modules that move what it holds.

Shares are issued and redeemed, fees accrue, the manager trades and wraps components, others
trade them towards targets or bid for them in auctions, and units follow rebasing balances.
Whatever the order, a token stays backed by each of these; only a fee that accrues where the
balance does not cover the unit before rounding, or a balance that falls by itself, can leave
it unbacked. What is kept does not depend on time, so each module has a clock of its own. -/
namespace IndexProtocol
open Evm PreciseUnitMath

/-- The state of the modules with the SetToken, but for ether and rebasing components. -/
structure ManagedState where
  fund : FundState
  index : GeneralIndexModule.State
  auction : AuctionState
  airdrop : AirdropModule.State

abbrev ManagedFund := World (WithEther (WithRebasing ManagedState))

namespace ManagedFund

/-- The contracts around the SetToken: addresses of modules, adapters by address, and what calls of
exchanges and protocols by the SetToken do. -/
structure Contracts where
  issuance : Address
  streaming : Address
  tradeModule : Address
  wrapModule : Address
  rebasingModule : Address
  indexModule : Address
  auctionModule : Address
  airdropModule : Address
  weth : Address
  hooks : Address → PreIssueHook FundState
  tradeAdapters : Address → TradeModule.ExchangeAdapter
  exchange : Address → Nat → List UInt8 → ManagedFund → Result ManagedFund
  wrapAdapters : Address → WrapModule.WrapAdapter
  protocol : Address → Nat → List UInt8 → ManagedFund → Result ManagedFund
  registration : RebasingComponentModule.Issuance ManagedState
  indexAdapters : Address → GeneralIndexModule.ExchangeAdapter
  indexExchange : Address → Nat → List UInt8 → IndexWorld → Result IndexWorld
  priceAdapters : Address → PriceAdapter

inductive Action where
  | fund (a : Fund.Action)
  | trade (sender : Address) (exchangeName : String) (sendToken : Address) (sendQuantity : Nat)
      (receiveToken : Address) (minReceiveQuantity : Nat) (data : List UInt8)
  | wrap (integrationName : String) (sender : Address) (a : WrapModule.Action)
  | rebasing (a : RebasingComponentModule.Action)
  | index (a : GeneralIndexModule.Action)
  | auction (a : AuctionRebalanceModuleV1.Action)
  | airdrop (a : AirdropModule.Action)

/-! ### The state, by module -/

abbrev State := WithEther (WithRebasing ManagedState)

namespace State

def rebasing (state : State) : WithRebasing ManagedState := state.others

def withRebasing (state : State) (rebasing : WithRebasing ManagedState) : State :=
  { state with others := rebasing }

def fund (state : State) : FundState := state.others.others.fund

def index (state : State) : GeneralIndexModule.State := state.others.others.index

def auction (state : State) : AuctionState := state.others.others.auction

def airdrop (state : State) : AirdropModule.State := state.others.others.airdrop

def withManaged (state : State) (managed : ManagedState) : State :=
  { state with others := { state.others with others := managed } }

def withFund (state : State) (fund : FundState) : State :=
  withManaged state { state.others.others with fund := fund }

def withIndex (state : State) (index : GeneralIndexModule.State) : State :=
  withManaged state { state.others.others with index := index }

def withAuction (state : State) (auction : AuctionState) : State :=
  withManaged state { state.others.others with auction := auction }

def withAirdrop (state : State) (airdrop : AirdropModule.State) : State :=
  withManaged state { state.others.others with airdrop := airdrop }

end State

/-- The SetToken as a module sees it that looks at a part of the state. -/
def part {ρ : Type} (get : State → ρ) (w : ManagedFund) : World ρ :=
  ⟨w.setToken, w.tokens, get w.rest⟩

variable (c : Contracts)

def step (w : ManagedFund) : Action → Result ManagedFund
  | .fund a =>
    w.onPart State.fund State.withFund (Fund.step c.issuance c.streaming c.hooks · a)
  | .trade sender exchangeName sendToken sendQuantity receiveToken minReceiveQuantity data =>
    TradeModule.trade c.tradeAdapters c.exchange c.tradeModule w sender exchangeName sendToken
      sendQuantity receiveToken minReceiveQuantity data
  | .wrap integrationName sender a =>
    WrapModule.step c.wrapAdapters c.protocol c.wrapModule c.weth integrationName sender w a
  | .rebasing a =>
    w.onPart State.rebasing State.withRebasing
      (RebasingComponentModule.step c.registration c.rebasingModule · a)
  | .index a =>
    w.onPart State.index State.withIndex
      (GeneralIndexModule.step c.indexAdapters c.indexExchange c.indexModule c.weth · a)
  | .auction a =>
    w.onPart State.auction State.withAuction
      (AuctionRebalanceModuleV1.step c.priceAdapters c.auctionModule · a)
  | .airdrop a =>
    w.onPart State.airdrop State.withAirdrop (AirdropModule.step c.airdropModule · a)

/-- What keeps a token backed: contracts outside take no more than what is sold to them, a fee that
mints shares finds the token covered before rounding, and what the modules here do not do, to the
SetToken and to the tokens, is steady. -/
def Steady (token : Address) (w : ManagedFund) : Action → Prop
  | .fund a => Fund.Covers token (part State.fund w) a
  | .trade _ exchangeName sendToken _ _ _ _ =>
    TradeModule.ExchangeTakes c.tradeAdapters c.exchange c.tradeModule exchangeName w sendToken
  | .wrap integrationName _ a =>
    WrapModule.CallTakes c.wrapAdapters c.protocol c.wrapModule c.weth integrationName w a
  | .rebasing a => RebasingComponentModule.Steady token (part State.rebasing w) a
  | .index a =>
    GeneralIndexModule.Steady c.indexAdapters c.indexExchange c.indexModule c.weth token
      (part State.index w) a
  | .auction a => AuctionRebalanceModuleV1.Steady token (part State.auction w) a
  | .airdrop a => AirdropModule.Steady token (part State.airdrop w) a

variable {c} {token : Address} {w u v : ManagedFund}

theorem onPart_eq {ρ : Type} {get : State → ρ} {set : State → ρ → State}
    {call : World ρ → Result (World ρ)} (h : w.onPart get set call = .ok v) :
    ∃ x, call (part get w) = .ok x ∧ v = ⟨x.setToken, x.tokens, set w.rest x.rest⟩ := by
  simp only [World.onPart, bind_eq_ok, pure_eq_ok] at h
  obtain ⟨x, hx, rfl⟩ := h
  exact ⟨x, hx, rfl⟩

/-- One action keeps a token backed. -/
theorem step_pays {a : Action} (h : w.Pays token) (hsteady : Steady c token w a)
    (hstep : step c w a = .ok v) : v.Pays token := by
  have hpart {ρ : Type} (get : State → ρ) : (part get w).Pays token := ⟨h.wellFormed, h.backed⟩
  have hwhole {ρ : Type} {x : World ρ} {rest : State} (hx : x.Pays token) :
      World.Pays ⟨x.setToken, x.tokens, rest⟩ token := ⟨hx.wellFormed, hx.backed⟩
  cases a with
  | fund a =>
    simp only [step] at hstep
    obtain ⟨x, hx, rfl⟩ := onPart_eq hstep
    exact hwhole (Fund.step_pays (hpart _) hsteady hx)
  | trade sender exchangeName sendToken sendQuantity receiveToken minReceiveQuantity data =>
    obtain ⟨_, _, _, htraded⟩ := TradeModule.trade_traded h.wellFormed hsteady hstep
    exact htraded.rebalanced.pays h.backed
  | wrap integrationName sender a =>
    obtain ⟨_, _, hacted⟩ := WrapModule.step_acted h.wellFormed hsteady hstep
    exact hacted.rebalanced.pays h.backed
  | rebasing a =>
    simp only [step] at hstep
    obtain ⟨x, hx, rfl⟩ := onPart_eq hstep
    exact hwhole (RebasingComponentModule.step_pays (hpart _) hsteady hx)
  | index a =>
    simp only [step] at hstep
    obtain ⟨x, hx, rfl⟩ := onPart_eq hstep
    exact hwhole (GeneralIndexModule.step_pays (hpart _) hsteady hx)
  | auction a =>
    simp only [step] at hstep
    obtain ⟨x, hx, rfl⟩ := onPart_eq hstep
    exact hwhole (AuctionRebalanceModuleV1.step_pays (hpart _) hsteady hx)
  | airdrop a =>
    simp only [step] at hstep
    obtain ⟨x, hx, rfl⟩ := onPart_eq hstep
    exact hwhole (AirdropModule.step_pays (hpart _) hsteady hx)

/-- **A managed SetToken stays backed.** From the creation of the SetToken, whatever is issued,
redeemed, traded, wrapped, unwrapped, rebalanced, bid for, synced and absorbed, in any order, the
balance of a token pays its unit of every share, as long as the contracts that the SetToken calls
take no more than what is sold to them, fees that mint shares accrue only where the balance covers
the unit before rounding, and the balance does not fall by itself. -/
theorem backed_along {controller : Controller} {factory self manager : Address}
    {components modules : List Address} {units : List Int} {actions : List Action}
    (hcreate : SetTokenCreator.create controller factory self components units modules manager =
      .ok w.setToken)
    (hsteady : Along (step c) (Steady c token) w actions)
    (hrun : runs (step c) w actions = .ok v) : v.Backed token := by
  have hstart : w.Pays token := by
    refine ⟨SetToken.create_wellFormed hcreate, ?_⟩
    rw [World.Backed, (SetToken.create_empty hcreate).1]
    simp [Covered]
  have hend : v.Pays token := runs_induction_along (fun (w : ManagedFund) _ => w.Pays token)
    (fun _ _ _ _ h hC ht => step_pays h hC ht) hstart hsteady hrun
  exact hend.backed

/-! A share is issued for forty of token 1, which grow by a half and are synced, and a year's fee
makes two hundredths of a share. Some of the token are then traded, unwrapped, sold towards a target
and bid for, twenty more are absorbed, and half a share is redeemed. -/

section Example
open AuctionRebalanceModuleV1 (exampleTokens)

def exampleModules : List Address := [50, 51, 52, 53, 54, 55, 60, 61]

def exampleController : Controller :=
  { AuctionRebalanceModuleV1.exampleController with isModule := fun a => exampleModules.contains a }

def exampleCreation : Result SetToken :=
  SetTokenCreator.create { exampleController with isSet := fun _ => false } 7 100 [1] [40]
    exampleModules 9

def exampleContracts : Contracts where
  issuance := 60
  streaming := 61
  tradeModule := 50
  wrapModule := 51
  rebasingModule := 52
  indexModule := 53
  auctionModule := 54
  airdropModule := 55
  weth := 2
  hooks := Fund.noHooks
  tradeAdapters := TradeModule.exampleAdapters
  exchange := TradeModule.exampleExchange
  wrapAdapters := WrapModule.exampleAdapters
  protocol := WrapModule.exampleCall
  registration := ⟨fun _ _ => revert "Unsupported", fun _ _ => revert "Unsupported"⟩
  indexAdapters := GeneralIndexModule.exampleAdapters
  indexExchange := GeneralIndexModule.exampleExchange
  priceAdapters := AuctionRebalanceModuleV1.exampleAdapters

def exampleState : State :=
  ⟨0, .empty, ⟨⟨0, ⟨0, 0, 0, 0⟩⟩, .empty 1000, .empty 1000, ⟨.empty, fun _ => false⟩⟩⟩

/-- The modules are initialized, and a share is issued. -/
def exampleIssued : List Action :=
  [.rebasing (.callSetToken (.changeController exampleController)), .fund (.initializeIssuance 9 0),
    .fund (.initializeFees 0 9 ⟨8, 5 * 10 ^ 16, 2 * 10 ^ 16, 0⟩),
    .rebasing (.callSetToken (.initializeModule 50)),
    .rebasing (.callSetToken (.initializeModule 51)), .rebasing (.initializeSet 9 [1]),
    .index (.initializeSet 9), .auction (.initializeSet 9),
    .airdrop (.initializeSet 9 ⟨[1], 5, 2 * 10 ^ 17, true⟩), .fund (.issue 30 77 (10 ^ 18)),
    .fund (.transferToken 1 30 100 20), .rebasing .sync]

/-- What the fund holds is moved. -/
def exampleMoved : List Action :=
  [.trade 9 "exchange" 1 4 2 700 [], .wrap "protocol" 9 (.unwrapWithEther 1 4),
    .index (.startRebalance 9 [] [] [40, 0] (10 ^ 18)), .index (.setExchanges 9 [1] ["exchange"]),
    .index (.setTradeMaximums 9 [1] [100]), .index (.setAnyoneTrade 9 true),
    .index (.trade 30 30 1 5),
    .auction (.startRebalance 9 2 [] [] [⟨30, "price", []⟩, ⟨0, "price", []⟩] false 3600 (10 ^ 18)),
    .auction (.setAnyoneBid 9 true), .auction (.bid 30 1 2 5 5 true),
    .fund (.transferToken 1 30 100 20), .airdrop (.absorb 30 1), .fund (.redeem 77 77 (5 * 10 ^ 17))]

theorem exampleIssued_steady : ∀ a ∈ exampleIssued, ∀ w, Steady exampleContracts 1 w a := by
  have hcontroller (w : ManagedFund) :
      Steady exampleContracts 1 w (.rebasing (.callSetToken (.changeController exampleController))) :=
    fun t ht => by
      obtain rfl := pure_eq_ok.mp ht
      exact ⟨⟨rfl, rfl, rfl, rfl⟩, rfl⟩
  have hmodule (module : Address) (w : ManagedFund) :
      Steady exampleContracts 1 w (.rebasing (.callSetToken (.initializeModule module))) :=
    fun t => SetToken.initializeModule_sameShares
  simp only [exampleIssued, List.forall_mem_cons]
  exact ⟨hcontroller, fun _ => trivial, fun _ => trivial, hmodule 50, hmodule 51, fun _ => trivial,
    fun _ => trivial, fun _ => trivial, fun _ => trivial, fun _ => trivial, fun _ => trivial,
    fun _ => trivial, List.forall_mem_nil _⟩

/-- The exchanges and the protocol, all at 72, take no more than what they are called for. -/
theorem exampleMoved_steady : ∀ a ∈ exampleMoved, ∀ w : ManagedFund, w.setToken.self ≠ 72 →
    Steady exampleContracts 1 w a := by
  have htrade (w : ManagedFund) (hself : w.setToken.self ≠ 72) :
      TradeModule.ExchangeTakes TradeModule.exampleAdapters TradeModule.exampleExchange 50
        "exchange" w 1 := TradeModule.exampleExchange_takes hself
  have hwrap (w : ManagedFund) (hself : w.setToken.self ≠ 72) :
      WrapModule.CallTakes WrapModule.exampleAdapters WrapModule.exampleCall 51 2 "protocol" w
        (.unwrapWithEther 1 4) := WrapModule.exampleCall_takes hself 4
  have hindex (w : ManagedFund) (hself : w.setToken.self ≠ 72) :
      Steady exampleContracts 1 w (.index (.trade 30 30 1 5)) :=
    fun info _ => (GeneralIndexModule.exampleExchange_exact info hself).spares
  simp only [exampleMoved, List.forall_mem_cons]
  exact ⟨htrade, hwrap, fun _ _ => trivial, fun _ _ => trivial, fun _ _ => trivial,
    fun _ _ => trivial, hindex, fun _ _ => trivial, fun _ _ => trivial, fun _ _ => trivial,
    fun _ _ => trivial, fun _ _ => trivial, fun _ _ => trivial, List.forall_mem_nil _⟩

theorem backed_along_example : ∃ s v, exampleCreation = .ok s ∧
    runs (step exampleContracts) ⟨s, exampleTokens 0, exampleState⟩
      (exampleIssued ++ .fund (.accrueFee 31557600) :: exampleMoved) = .ok v ∧
    5 * 10 ^ 17 < v.setToken.totalSupply ∧ v.unit 1 = 52 ∧ v.balance 1 = 29 ∧ v.Backed 1 := by
  have h : (do
      let s ← exampleCreation
      let t ← runs (step exampleContracts) ⟨s, exampleTokens 0, exampleState⟩ exampleIssued
      let u ← step exampleContracts t (.fund (.accrueFee 31557600))
      let v ← runs (step exampleContracts) u exampleMoved
      require (Fund.CoversUnrounded (part State.fund t) 1 ∧
        Along (step exampleContracts) (fun w _ => w.setToken.self ≠ 72) u exampleMoved ∧
        5 * 10 ^ 17 < v.setToken.totalSupply ∧ v.unit 1 = 52 ∧ v.balance 1 = 29) "") = .ok () := by
    decide +kernel
  simp only [bind_eq_ok, require_eq_ok] at h
  obtain ⟨s, hs, t, hissued, u, haccrued, v, hmoved, hcovers, hself, hsupply, hunit, hbalance⟩ := h
  have hrun := runs_append hissued ((runs_cons_eq_ok _).mpr ⟨u, haccrued, hmoved⟩)
  refine ⟨s, v, hs, hrun, hsupply, hunit, hbalance,
    backed_along (w := ⟨s, exampleTokens 0, exampleState⟩) hs
      (along_append (along_of_forall exampleIssued_steady _) fun t' ht' => ?_) hrun⟩
  obtain rfl : t = t' := Except.ok.inj (hissued.symm.trans ht')
  refine ⟨.inr hcovers, fun u' hu' => ?_⟩
  obtain rfl : u = u' := Except.ok.inj (haccrued.symm.trans hu')
  exact along_imp exampleMoved_steady hself

end Example

end ManagedFund

end IndexProtocol
