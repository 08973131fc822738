import IndexProtocol.Migration.Extension
import Mathlib.Logic.Relation

/-! Who has the MigrationExtension migrate.

Functions of the extension and loans of the three lenders run inside each other,
as a stack. Anybody may have a lender lend to anybody. What reverts leaves nothing
behind, so the steps are of what does not. -/
namespace IndexProtocol
open Evm

namespace MigrationExtension

/-- A loan, with what the lender tells its receiver. -/
inductive Loan (β : Type) where
  | aave (receiver initiator : Address) (amount premium : Nat) (params : β)
  | balancer (recipient : Address) (amounts feeAmounts : List Nat) (userData : β)
  | morpho (caller : Address) (assets : Nat) (data : β)

inductive Frame (ω β : Type) where
  /-- A function of the extension; the parameters, if it is a migration of the operator. -/
  | running (entry : Option DecodedParams) (program : Running ω β Nat)
  | loan (l : Loan β) (calledBack : Bool)

/-- That the extension migrated. -/
structure Migration where
  decodedParams : DecodedParams
  /-- The operator's migrations that it happened inside of, the innermost first. -/
  inside : List DecodedParams

structure Machine (ω β : Type) where
  world : MigrationWorld ω
  /-- The innermost first. -/
  stack : List (Frame ω β)
  /-- The latest first. -/
  migrations : List Migration

variable {ω β : Type} (e : Surroundings ω β) (x : MigrationExtension)

/-- Whom the lender calls back. -/
def Loan.receiver : Loan β → Address
  | .aave receiver _ _ _ _ => receiver
  | .balancer recipient _ _ _ => recipient
  | .morpho caller _ _ => caller

/-- The lender's call of the extension. -/
def Loan.callback : Loan β → Result (DecodedParams × Running ω β Nat)
  | .aave _ initiator amount premium params =>
    executeOperation e x x.pool amount premium initiator params
  | .balancer _ amounts feeAmounts userData =>
    receiveFlashLoan e x x.balancer amounts feeAmounts userData
  | .morpho _ assets data => onMorphoFlashLoan e x x.morpho assets data

/-- The extension's call of a lender, and the loan that it leads to. -/
inductive Asks : Call β → Loan β → Prop
  | flashLoanSimple (receiver asset : Address) (amount premium : Nat) (params : β) :
    Asks (.flashLoanSimple receiver asset amount params)
      (.aave receiver x.self amount premium params)
  | flashLoan (recipient : Address) (tokens : List Address) (amounts feeAmounts : List Nat)
    (userData : β) :
    Asks (.flashLoan recipient tokens amounts userData)
      (.balancer recipient amounts feeAmounts userData)
  | morphoFlashLoan (token : Address) (assets : Nat) (data : β) :
    Asks (.morphoFlashLoan token assets data) (.morpho x.self assets data)

/-- A loan that somebody else may ask for. Balancer does not tell who did. -/
def Loan.Foreign : Loan β → Prop
  | .aave _ initiator _ _ _ => initiator ≠ x.self
  | .balancer _ _ _ _ => True
  | .morpho caller _ _ => caller ≠ x.self

/-- Others may act: no function of the extension is between two calls. -/
def Waiting : List (Frame ω β) → Prop
  | [] => True
  | .loan _ _ :: _ => True
  | .running _ (.call _ _) :: _ => True
  | .running _ _ :: _ => False

/-- The operator's migrations that are running. -/
def inside : List (Frame ω β) → List DecodedParams
  | [] => []
  | .running (some decodedParams) _ :: below => decodedParams :: inside below
  | .running none _ :: below => inside below
  | .loan _ _ :: below => inside below

/-- A step of the extension, of a lender or of anybody else, where `Allowed` holds of the loans
that anybody but the extension asks for. -/
inductive Step (Allowed : Loan β → Prop) : Machine ω β → Machine ω β → Prop
  | operate {w : MigrationWorld ω} {stack : List (Frame ω β)} {migrations : List Migration}
      {sender : Address} {call : OperatorCall} {program : Running ω β Nat} (hopen : Waiting stack)
      (h : operate e x w sender call = .ok program) :
      Step Allowed ⟨w, stack, migrations⟩ ⟨w, .running none program :: stack, migrations⟩
  | migrate {w : MigrationWorld ω} {stack : List (Frame ω β)} {migrations : List Migration}
      {lender : Lender} {sender : Address} {decodedParams : DecodedParams}
      {underlyingLoanAmount maxSubsidy : Nat} {program : Running ω β Nat} (hopen : Waiting stack)
      (h : migrateWith e x lender w sender decodedParams underlyingLoanAmount maxSubsidy =
        .ok program) :
      Step Allowed ⟨w, stack, migrations⟩
        ⟨w, .running (some decodedParams) program :: stack, migrations⟩
  | read {w : MigrationWorld ω} {stack : List (Frame ω β)} {migrations : List Migration}
      {entry : Option DecodedParams} {next : MigrationWorld ω → Running ω β Nat} :
      Step Allowed ⟨w, .running entry (.read next) :: stack, migrations⟩
        ⟨w, .running entry (next w) :: stack, migrations⟩
  | write {w v : MigrationWorld ω} {stack : List (Frame ω β)} {migrations : List Migration}
      {entry : Option DecodedParams} {next : Running ω β Nat} :
      Step Allowed ⟨w, .running entry (.write v next) :: stack, migrations⟩
        ⟨v, .running entry next :: stack, migrations⟩
  | answer {w : MigrationWorld ω} {stack : List (Frame ω β)} {migrations : List Migration}
      {entry : Option DecodedParams} {c : Call β} {next : Nat → Running ω β Nat} (answer : Nat)
      (others : ω) (hcall : ∀ l, ¬Asks x c l) :
      Step Allowed ⟨w, .running entry (.call c next) :: stack, migrations⟩
        ⟨{ w with others := others }, .running entry (next answer) :: stack, migrations⟩
  | borrow {w : MigrationWorld ω} {stack : List (Frame ω β)} {migrations : List Migration}
      {entry : Option DecodedParams} {c : Call β} {next : Nat → Running ω β Nat} {l : Loan β}
      (hcall : Asks x c l) :
      Step Allowed ⟨w, .running entry (.call c next) :: stack, migrations⟩
        ⟨w, .loan l false :: .running entry (next 0) :: stack, migrations⟩
  | returned {w : MigrationWorld ω} {stack : List (Frame ω β)} {migrations : List Migration}
      {entry : Option DecodedParams} {answer : Nat} :
      Step Allowed ⟨w, .running entry (.done answer) :: stack, migrations⟩ ⟨w, stack, migrations⟩
  | lend {w : MigrationWorld ω} {stack : List (Frame ω β)} {migrations : List Migration}
      {l : Loan β} (hopen : Waiting stack) (hforeign : l.Foreign x) (hallowed : Allowed l) :
      Step Allowed ⟨w, stack, migrations⟩ ⟨w, .loan l false :: stack, migrations⟩
  | callback {w : MigrationWorld ω} {stack : List (Frame ω β)} {migrations : List Migration}
      {l : Loan β} {decodedParams : DecodedParams} {program : Running ω β Nat}
      (hself : l.receiver = x.self) (h : l.callback e x = .ok (decodedParams, program)) :
      Step Allowed ⟨w, .loan l false :: stack, migrations⟩
        ⟨w, .running none program :: .loan l true :: stack,
          ⟨decodedParams, inside stack⟩ :: migrations⟩
  | callbackElsewhere {w : MigrationWorld ω} {stack : List (Frame ω β)}
      {migrations : List Migration} {l : Loan β} (hself : l.receiver ≠ x.self) :
      Step Allowed ⟨w, .loan l false :: stack, migrations⟩ ⟨w, .loan l true :: stack, migrations⟩
  | repaid {w : MigrationWorld ω} {stack : List (Frame ω β)} {migrations : List Migration}
      {l : Loan β} :
      Step Allowed ⟨w, .loan l true :: stack, migrations⟩ ⟨w, stack, migrations⟩
  | elsewhere {w : MigrationWorld ω} {stack : List (Frame ω β)} {migrations : List Migration}
      (others : ω) (hopen : Waiting stack) :
      Step Allowed ⟨w, stack, migrations⟩ ⟨{ w with others := others }, stack, migrations⟩

/-- Every migration happened inside one of the operator, with the operator's parameters. -/
def ForOperator (m : Machine ω β) : Prop :=
  ∀ migration ∈ m.migrations, migration.inside.head? = some migration.decodedParams

/-- Not a loan of Balancer to the extension. -/
def NotBalancerTo : Loan β → Prop
  | .balancer recipient _ _ _ => recipient ≠ x.self
  | _ => True

/-! ### The loans that the extension asks for -/

/-- A lender is asked for nothing but the operator's parameters. -/
def Carries (entry : Option DecodedParams) (c : Call β) : Prop :=
  match c with
  | .flashLoanSimple _ _ _ params => ∃ p, entry = some p ∧ params = e.encode p
  | .flashLoan _ _ _ params => ∃ p, entry = some p ∧ params = e.encode p
  | .morphoFlashLoan _ _ params => ∃ p, entry = some p ∧ params = e.encode p
  | _ => True

section Programs
variable {e x} {entry : Option DecodedParams}

theorem invokeTrade_makes {exchangeName : String} {sendToken receiveToken : Address}
    {sendQuantity minReceiveQuantity : Nat} {data : List UInt8} :
    (invokeTrade x exchangeName sendToken sendQuantity receiveToken minReceiveQuantity data :
      Running ω β Unit).Makes (Carries e entry) := Program.makes_tell trivial

theorem issueRequiredWrappedSetToken_makes {amount : Nat} :
    (issueRequiredWrappedSetToken e x amount).Makes (Carries e entry) := by
  refine (Program.makes_view _).bind fun balance => .whenever ?_
  refine (Program.makes_view _).bind fun required => ?_
  refine Program.makes_require.bind fun _ => Program.makes_require.bind fun _ => ?_
  refine (Program.makes_ofResult _).bind fun underlyingUnit => ?_
  exact (Program.makes_tell trivial).bind fun _ => (Program.makes_tell trivial).bind fun _ =>
    (Program.makes_tell trivial).bind fun _ => Program.makes_tell trivial

theorem redeemExcessWrappedSetToken_makes :
    (redeemExcessWrappedSetToken e x).Makes (Carries e entry) := by
  refine (Program.makes_view _).bind fun balance => .whenever ?_
  refine (Program.makes_tell trivial).bind fun _ => (Program.makes_tell trivial).bind fun _ => ?_
  exact (Program.makes_view _).bind fun aaveBalance => (Program.makes_tell trivial).bind fun _ =>
    Program.makes_tell trivial

theorem approveLiquidity_makes {underlyingAmount wrappedSetTokenAmount : Nat} :
    (approveLiquidity x underlyingAmount wrappedSetTokenAmount : Running ω β Unit).Makes
      (Carries e entry) :=
  (Program.makes_tell trivial).whenever.bind fun _ => (Program.makes_tell trivial).whenever

theorem increasePosition_makes {amount0Desired amount1Desired amount0Min amount1Min tokenId : Nat}
    {isUnderlyingToken0 : Bool} :
    (increasePosition e x amount0Desired amount1Desired amount0Min amount1Min tokenId
      isUnderlyingToken0).Makes (Carries e entry) :=
  approveLiquidity_makes.bind fun _ => (Program.makes_view _).bind fun _ =>
    Program.makes_ask trivial

theorem mintPosition_makes {amount0Desired amount1Desired amount0Min amount1Min fee : Nat}
    {tickLower tickUpper : Int} {isUnderlyingToken0 : Bool} :
    (mintPosition e x amount0Desired amount1Desired amount0Min amount1Min tickLower tickUpper fee
      isUnderlyingToken0).Makes (Carries e entry) :=
  approveLiquidity_makes.bind fun _ => (Program.makes_view _).bind fun _ =>
    (Program.makes_ask trivial).bind fun _ => Program.makes_modify _

theorem decreasePosition_makes {tokenId liquidity amount0Min amount1Min : Nat} :
    (decreasePosition e x tokenId liquidity amount0Min amount1Min).Makes (Carries e entry) :=
  (Program.makes_view _).bind fun _ => (Program.makes_tell trivial).bind fun _ =>
    Program.makes_tell trivial

theorem migrate_makes {decodedParams : DecodedParams} :
    (migrate e x decodedParams).Makes (Carries e entry) := by
  refine issueRequiredWrappedSetToken_makes.bind fun _ => ?_
  refine increasePosition_makes.bind fun liquidity => ?_
  refine invokeTrade_makes.bind fun _ => ?_
  exact decreasePosition_makes.bind fun _ => redeemExcessWrappedSetToken_makes

theorem operate_makes {w : MigrationWorld ω} {sender : Address} {call : OperatorCall}
    {program : Running ω β Nat} (h : operate e x w sender call = .ok program) :
    program.Makes (Carries e entry) := by
  simp only [operate, bind_eq_ok, pure_eq_ok] at h
  obtain ⟨_, _, rfl⟩ := h
  cases call with
  | initializeSet => exact (Program.makes_tell trivial).bind fun _ => Program.makes_pure _
  | trade => exact invokeTrade_makes.bind fun _ => Program.makes_pure _
  | mintLiquidityPosition => exact mintPosition_makes.bind fun _ => Program.makes_pure _
  | increaseLiquidityPosition => exact increasePosition_makes
  | decreaseLiquidityPosition => exact decreasePosition_makes.bind fun _ => Program.makes_pure _
  | sweepTokens token =>
    refine (Program.makes_view _).bind fun balance => Program.makes_require.bind fun _ => ?_
    exact (Program.makes_view _).bind fun operator => (Program.makes_tell trivial).bind fun _ =>
      Program.makes_pure _

theorem migrateWith_makes {lender : Lender} {w : MigrationWorld ω} {sender : Address}
    {decodedParams : DecodedParams} {underlyingLoanAmount maxSubsidy : Nat}
    {program : Running ω β Nat}
    (h : migrateWith e x lender w sender decodedParams underlyingLoanAmount maxSubsidy =
      .ok program) :
    program.Makes (Carries e (some decodedParams)) := by
  simp only [migrateWith, bind_eq_ok, pure_eq_ok] at h
  obtain ⟨_, _, rfl⟩ := h
  refine (Program.makes_tell trivial).whenever.bind fun _ => ?_
  refine (Program.makes_tell ?_).bind fun _ => (Program.makes_view _).bind fun amount => ?_
  · cases lender <;> exact ⟨decodedParams, rfl, rfl⟩
  · exact (Program.makes_tell trivial).whenever.bind fun _ => Program.makes_pure _

theorem callback_makes {l : Loan β} {decodedParams : DecodedParams} {program : Running ω β Nat}
    (h : l.callback e x = .ok (decodedParams, program)) : program.Makes (Carries e entry) := by
  cases l with
  | aave receiver initiator amount premium params =>
    simp only [Loan.callback, executeOperation, bind_eq_ok, pure_eq_ok, Prod.mk.injEq] at h
    obtain ⟨_, _, _, _, _, _, rfl, rfl⟩ := h
    exact migrate_makes.bind fun _ => (Program.makes_tell trivial).bind fun _ =>
      Program.makes_pure _
  | balancer recipient amounts feeAmounts userData =>
    simp only [Loan.callback, receiveFlashLoan, bind_eq_ok, pure_eq_ok, Prod.mk.injEq] at h
    obtain ⟨_, _, _, _, rfl, rfl⟩ := h
    exact migrate_makes.bind fun _ => (Program.makes_ofResult _).bind fun _ =>
      (Program.makes_ofResult _).bind fun _ => (Program.makes_tell trivial).bind fun _ =>
      Program.makes_pure _
  | morpho caller assets data =>
    simp only [Loan.callback, onMorphoFlashLoan, bind_eq_ok, pure_eq_ok, Prod.mk.injEq] at h
    obtain ⟨_, _, _, _, rfl, rfl⟩ := h
    exact migrate_makes.bind fun _ => (Program.makes_tell trivial).bind fun _ =>
      Program.makes_pure _

/-- What a callback checks: the initiator, where the lender tells it, and nothing else. -/
theorem callback_checked {l : Loan β} {decodedParams : DecodedParams}
    {program : Running ω β Nat} (h : l.callback e x = .ok (decodedParams, program)) :
    match l with
    | .aave _ initiator _ _ params => initiator = x.self ∧ e.decode params = .ok decodedParams
    | .balancer _ _ _ userData => e.decode userData = .ok decodedParams
    | .morpho _ _ data => e.decode data = .ok decodedParams := by
  cases l with
  | aave receiver initiator amount premium params =>
    simp only [Loan.callback, executeOperation, bind_eq_ok, require_eq_ok, pure_eq_ok,
      Prod.mk.injEq] at h
    obtain ⟨_, _, _, hinitiator, _, hdecode, rfl, rfl⟩ := h
    exact ⟨hinitiator, hdecode⟩
  | balancer recipient amounts feeAmounts userData =>
    simp only [Loan.callback, receiveFlashLoan, bind_eq_ok, pure_eq_ok, Prod.mk.injEq] at h
    obtain ⟨_, _, _, hdecode, rfl, rfl⟩ := h
    exact hdecode
  | morpho caller assets data =>
    simp only [Loan.callback, onMorphoFlashLoan, bind_eq_ok, pure_eq_ok, Prod.mk.injEq] at h
    obtain ⟨_, _, _, hdecode, rfl, rfl⟩ := h
    exact hdecode

end Programs

/-! ### Every callback stems from the operator -/

variable {e x} {m t : Machine ω β} {stack : List (Frame ω β)} {Allowed : Loan β → Prop}

/-- A loan that can call the extension back was asked for by a migration of the operator, and a
migration asks for no other. -/
def Sourced (e : Surroundings ω β) (x : MigrationExtension) : List (Frame ω β) → Prop
  | [] => True
  | .running entry program :: below => program.Makes (Carries e entry) ∧ Sourced e x below
  | .loan l _ :: below =>
    (∀ decodedParams program, l.receiver = x.self →
      l.callback e x = .ok (decodedParams, program) →
      (inside below).head? = some decodedParams) ∧ Sourced e x below

structure Sound (e : Surroundings ω β) (x : MigrationExtension) (m : Machine ω β) : Prop where
  sourced : Sourced e x m.stack
  forOperator : ForOperator m

/-- What the extension asks for. -/
theorem asks_sourced {entry : Option DecodedParams} {c : Call β} {l : Loan β} (hcall : Asks x c l)
    (hcarries : Carries e entry c) {decodedParams : DecodedParams} {program : Running ω β Nat}
    (h : l.callback e x = .ok (decodedParams, program)) : entry = some decodedParams := by
  have hchecked := callback_checked h
  cases hcall with
  | flashLoanSimple receiver asset amount premium params =>
    obtain ⟨p, rfl, rfl⟩ := hcarries
    rw [← Except.ok.inj ((e.decode_encode p).symm.trans hchecked.2)]
  | flashLoan recipient tokens amounts feeAmounts userData =>
    obtain ⟨p, rfl, rfl⟩ := hcarries
    rw [← Except.ok.inj ((e.decode_encode p).symm.trans hchecked)]
  | morphoFlashLoan token assets data =>
    obtain ⟨p, rfl, rfl⟩ := hcarries
    rw [← Except.ok.inj ((e.decode_encode p).symm.trans hchecked)]

/-- What others ask for does not get past the checks, unless it is Balancer's. -/
theorem foreign_rejected {l : Loan β} (hforeign : l.Foreign x) (hallowed : NotBalancerTo x l)
    (hself : l.receiver = x.self) {decodedParams : DecodedParams} {program : Running ω β Nat} :
    l.callback e x ≠ .ok (decodedParams, program) := by
  intro h
  cases l with
  | aave receiver initiator amount premium params =>
    exact hforeign (callback_checked h).1
  | balancer recipient amounts feeAmounts userData => exact hallowed hself
  | morpho caller assets data => exact hforeign hself

theorem step_sound (h : Sound e x m) (ht : Step e x (NotBalancerTo x) m t) : Sound e x t := by
  obtain ⟨hsourced, hfor⟩ := h
  cases ht with
  | operate hopen hcall => exact ⟨⟨operate_makes hcall, hsourced⟩, hfor⟩
  | migrate hopen hcall => exact ⟨⟨migrateWith_makes hcall, hsourced⟩, hfor⟩
  | read => exact ⟨⟨hsourced.1 _, hsourced.2⟩, hfor⟩
  | write => exact ⟨hsourced, hfor⟩
  | answer answer others hcall => exact ⟨⟨hsourced.1.2 answer, hsourced.2⟩, hfor⟩
  | @borrow w stack migrations entry c next l hcall =>
    obtain ⟨⟨hcarries, hnext⟩, hbelow⟩ := hsourced
    refine ⟨⟨fun decodedParams program _ h => ?_, hnext 0, hbelow⟩, hfor⟩
    rw [asks_sourced hcall hcarries h]
    rfl
  | returned => exact ⟨hsourced.2, hfor⟩
  | lend hopen hforeign hallowed =>
    exact ⟨⟨fun _ _ hself h => absurd h (foreign_rejected hforeign hallowed hself), hsourced⟩, hfor⟩
  | callback hself hcall =>
    refine ⟨⟨callback_makes hcall, hsourced⟩, fun migration hin => ?_⟩
    cases List.mem_cons.mp hin with
    | inl hnow =>
      rw [hnow]
      exact hsourced.1 _ _ hself hcall
    | inr hbefore => exact hfor migration hbefore
  | callbackElsewhere => exact ⟨hsourced, hfor⟩
  | repaid => exact ⟨hsourced.2, hfor⟩
  | elsewhere => exact ⟨hsourced, hfor⟩

/-- **Only the operator migrates.** While nobody else has Balancer lend to the extension, every
migration happens inside one of the operator, with its parameters. -/
theorem migrates_for_operator {w : MigrationWorld ω}
    (h : Relation.ReflTransGen (Step e x (NotBalancerTo x)) ⟨w, [], []⟩ m) : ForOperator m := by
  suffices hsound : Sound e x m from hsound.forOperator
  induction h with
  | refl => exact ⟨trivial, fun _ hin => absurd hin List.not_mem_nil⟩
  | tail _ hstep ih => exact step_sound ih hstep

/-! A migration of the operator, and one of somebody who has Balancer lend to the extension. -/

/-- A program that asks for no loan runs to its end where its calls change nothing. -/
theorem runs_alone {w v : MigrationWorld ω} {migrations : List Migration}
    {entry : Option DecodedParams} {program : Running ω β Nat} {answer : Nat}
    (hcalls : program.Makes (Carries e none)) (h : program.alone w = .ok (answer, v)) :
    Relation.ReflTransGen (Step e x Allowed) ⟨w, .running entry program :: stack, migrations⟩
      ⟨v, .running entry (.done answer) :: stack, migrations⟩ := by
  induction program generalizing w with
  | done a =>
    obtain ⟨rfl, rfl⟩ : a = answer ∧ w = v := by simpa [Program.alone] using h
    exact .refl
  | fail reason => cases h
  | read next ih => exact .head .read (ih w (hcalls w) h)
  | write s next ih => exact .head .write (ih hcalls h)
  | call c next ih =>
    refine .head (.answer 0 w.others fun l hasks => ?_) (ih 0 (hcalls.2 0) h)
    have hcarries := hcalls.1
    cases hasks <;> obtain ⟨_, hnone, _⟩ := hcarries <;> cases hnone

def exampleSurroundings : Surroundings Unit DecodedParams where
  operator _ := 1
  balanceOf _ _ _ := 0
  getRequiredComponentIssuanceUnits _ quantity _ := .ok ([13], [quantity], [0])
  timestamp _ := 1700000000
  encode := id
  decode := .ok
  decode_encode _ := rfl

def exampleExtension : MigrationExtension where
  self := 10
  setToken := 11
  underlyingToken := 12
  aaveToken := 13
  wrappedSetToken := 14
  tradeModule := 15
  issuanceModule := 16
  nonfungiblePositionManager := 17
  pool := 18
  morpho := 19
  balancer := 20

def exampleParams : DecodedParams where
  supplyLiquidityAmount0Desired := 0
  supplyLiquidityAmount1Desired := 1000
  supplyLiquidityAmount0Min := 0
  supplyLiquidityAmount1Min := 0
  tokenId := 5
  exchangeName := "UniswapV3ExchangeAdapter"
  underlyingTradeUnits := 100
  wrappedSetTokenTradeUnits := 1
  exchangeData := []
  redeemLiquidityAmount0Min := 0
  redeemLiquidityAmount1Min := 0
  isUnderlyingToken0 := true

theorem migrates_for_operator_example : ∃ m : Machine Unit DecodedParams,
    Relation.ReflTransGen
      (Step exampleSurroundings exampleExtension (NotBalancerTo exampleExtension))
      ⟨⟨[], ()⟩, [], []⟩ m ∧
    m.stack = [] ∧ m.migrations = [⟨exampleParams, [exampleParams]⟩] ∧ ForOperator m := by
  suffices h : Relation.ReflTransGen
      (Step exampleSurroundings exampleExtension (NotBalancerTo exampleExtension))
      ⟨⟨[], ()⟩, [], []⟩ ⟨⟨[], ()⟩, [], [⟨exampleParams, [exampleParams]⟩]⟩ from
    ⟨_, h, rfl, rfl, migrates_for_operator h⟩
  have hmigrate : migrateAave exampleSurroundings exampleExtension ⟨[], ()⟩ 1 exampleParams 1000 0 =
    .ok _ := rfl
  have hcallback : Loan.callback exampleSurroundings exampleExtension
    (.aave 10 10 1000 5 exampleParams) = .ok (exampleParams, _) := rfl
  refine .head (.migrate trivial hmigrate) ?_
  refine .head (.borrow (.flashLoanSimple 10 12 1000 5 exampleParams)) ?_
  refine .head (.callback rfl hcallback) ?_
  refine .trans (runs_alone (callback_makes hcallback) rfl) ?_
  refine .head .returned (.head .repaid ?_)
  exact .head .read (.head .returned .refl)

/-- Somebody has Balancer lend to the extension, and picks the parameters of the migration. -/
theorem migrates_for_anybody : ∃ m : Machine Unit DecodedParams,
    Relation.ReflTransGen (Step exampleSurroundings exampleExtension fun _ => True)
      ⟨⟨[], ()⟩, [], []⟩ m ∧
    m.stack = [] ∧ m.migrations = [⟨exampleParams, []⟩] ∧ ¬ForOperator m := by
  have hcallback : Loan.callback exampleSurroundings exampleExtension
    (.balancer 10 [0] [0] exampleParams) = .ok (exampleParams, _) := rfl
  refine ⟨⟨⟨[], ()⟩, [], [⟨exampleParams, []⟩]⟩, ?_, rfl, rfl, fun hfor => ?_⟩
  · have hforeign : Loan.Foreign exampleExtension (.balancer 10 [0] [0] exampleParams) := trivial
    refine .head (.lend trivial hforeign trivial) ?_
    refine .head (.callback rfl hcallback) ?_
    refine .trans (runs_alone (callback_makes hcallback) rfl) ?_
    exact .head .returned (.head .repaid .refl)
  · cases hfor _ (List.mem_singleton.mpr rfl)

end MigrationExtension

end IndexProtocol
