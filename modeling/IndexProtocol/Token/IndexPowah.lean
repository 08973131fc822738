import IndexProtocol.Manager.Upgrades
import IndexProtocol.Staking.Rewards
import IndexProtocol.Token.Vesting

/-! IndexPowah: the votes of an account, counted from where its INDEX is.

An account votes with the INDEX that it holds, that it has earned in farms, that
vests for it and that backs its liquidity. Farms and vesting contracts are listed,
and the lists grow by arrays. `addVesting` pushes the array; `addFarms` pushes its
first element as many times as the array is long. -/
namespace IndexProtocol
open Evm

structure IndexPowah where
  owner : Address
  masterChef : Address
  masterChefId : Nat
  uniPair : Address
  sushiPair : Address
  farms : List Address
  vesting : List Address

/-- The contracts that are asked, at a time. -/
structure VotingSources where
  timestamp : Nat
  indexToken : Erc20
  farm : Address → StakingRewardsV2
  vesting : Address → VestingContract
  pair : Address → Erc20
  /-- The liquidity of an account in a pool of a MasterChef. -/
  userInfo : Address → Nat → Address → Nat

namespace IndexPowah

/-- Addition of `uint256` that is not checked. -/
def wrapAdd (a b : Nat) : Nat := (a + b) % uintBound

def construct (owner uniPair sushiPair masterChef : Address) (masterChefId : Nat)
    (farms vesting : List Address) : Result IndexPowah := do
  require (owner ≠ 0) "Ownable: new owner is the zero address"
  pure ⟨owner, masterChef, masterChefId, uniPair, sushiPair, farms, vesting⟩

section Votes
variable (p : IndexPowah) (env : VotingSources) (account : Address)

def getFarmVotes : Result Nat :=
  runs (fun sum farm => do
    let earned ← (env.farm farm).earned env.timestamp account
    pure (wrapAdd sum earned)) 0 p.farms

def getVestingVotes : Nat :=
  p.vesting.foldl (fun sum vesting =>
    if (env.vesting vesting).schedule.recipient = account
    then wrapAdd sum (env.indexToken.balanceOf vesting) else sum) 0

def getDexVotesFromBalance (lpBalance : Nat) (pair : Address) : Result Nat :=
  let lpIndex := env.indexToken.balanceOf pair
  let lpTotal := (env.pair pair).totalSupply
  if lpTotal = 0 then pure 0
  else do
    let product ← SafeMath.mul lpIndex lpBalance
    SafeMath.div product lpTotal

def getDexVotes (pair : Address) : Result Nat :=
  getDexVotesFromBalance env ((env.pair pair).balanceOf account) pair

def getMasterChefVotes : Result Nat :=
  getDexVotesFromBalance env (env.userInfo p.masterChef p.masterChefId account) p.sushiPair

def balanceOf : Result Nat := do
  let indexAmount := env.indexToken.balanceOf account
  let unclaimedInFarms ← p.getFarmVotes env account
  let vestingVotes := p.getVestingVotes env account
  let uniVotes ← getDexVotes env account p.uniPair
  let sushiVotes ← getDexVotes env account p.sushiPair
  let masterChefVotes ← p.getMasterChefVotes env account
  let dexVotes := wrapAdd (wrapAdd uniVotes sushiVotes) masterChefVotes
  pure (wrapAdd (wrapAdd (wrapAdd indexAmount unclaimedInFarms) vestingVotes) dexVotes)

end Votes

section Owner
variable (p : IndexPowah) (sender : Address)

/-- Pushes the first new farm for each of them. -/
def addFarms (newFarms : List Address) : Result IndexPowah := do
  Ownable.onlyOwner p.owner sender
  pure { p with farms := newFarms.foldl (fun farms _ => farms ++ [newFarms.headD 0]) p.farms }

def addVesting (newVesting : List Address) : Result IndexPowah := do
  Ownable.onlyOwner p.owner sender
  pure { p with vesting := newVesting.foldl (fun vesting v => vesting ++ [v]) p.vesting }

def updateMasterChef (newMasterChef : Address) (newMasterChefId : Nat) : Result IndexPowah := do
  Ownable.onlyOwner p.owner sender
  pure { p with masterChef := newMasterChef, masterChefId := newMasterChefId }

end Owner

/-! ### What should be counted -/

section Counted
variable (env : VotingSources) (account : Address)

/-- The part of a pair's INDEX that liquidity stands for. -/
def dexShare (lpBalance : Nat) (pair : Address) : Nat :=
  env.indexToken.balanceOf pair * lpBalance / (env.pair pair).totalSupply

/-- The votes of an account in unbounded integers, from the farms and vesting contracts listed. -/
def votes (p : IndexPowah) (farms vesting : List Address) : Nat :=
  env.indexToken.balanceOf account +
    (farms.map fun farm => (env.farm farm).exactEarned env.timestamp account).sum +
    ((vesting.filter fun v => (env.vesting v).schedule.recipient = account).map
      env.indexToken.balanceOf).sum +
    (dexShare env ((env.pair p.uniPair).balanceOf account) p.uniPair +
      dexShare env ((env.pair p.sushiPair).balanceOf account) p.sushiPair +
      dexShare env (env.userInfo p.masterChef p.masterChefId account) p.sushiPair)

/-- No farm and no product overflows, and the votes are a `uint256`. -/
structure Fits (p : IndexPowah) (farms vesting : List Address) : Prop where
  earned : ∀ farm ∈ farms, ∃ amount, (env.farm farm).earned env.timestamp account = .ok amount
  uni : env.indexToken.balanceOf p.uniPair * (env.pair p.uniPair).balanceOf account < uintBound
  sushi : env.indexToken.balanceOf p.sushiPair * (env.pair p.sushiPair).balanceOf account < uintBound
  masterChef : env.indexToken.balanceOf p.sushiPair *
    env.userInfo p.masterChef p.masterChefId account < uintBound
  total : votes env account p farms vesting < uintBound

end Counted

variable {p : IndexPowah} {env : VotingSources} {account : Address} {farms vesting : List Address}

theorem wrapAdd_mod (a b : Nat) : wrapAdd (a % uintBound) b = (a + b) % uintBound :=
  Nat.mod_add_mod a uintBound b

/-- Farms are summed up to overflow. -/
theorem farmVotes_eq {sum total : Nat}
    (h : runs (fun sum farm => do
      let earned ← (env.farm farm).earned env.timestamp account
      pure (wrapAdd sum earned)) (sum % uintBound) farms = .ok total) :
    total = (sum + (farms.map fun farm =>
      (env.farm farm).exactEarned env.timestamp account).sum) % uintBound := by
  induction farms generalizing sum with
  | nil =>
    rw [List.map_nil, List.sum_nil, Nat.add_zero]
    exact (Except.ok.inj h).symm
  | cons farm rest ih =>
    obtain ⟨_, hfarm, hrest⟩ := (runs_cons_eq_ok _).mp h
    simp only [bind_eq_ok, pure_eq_ok] at hfarm
    obtain ⟨_, hearned, rfl⟩ := hfarm
    rw [StakingRewardsV2.earned_exact hearned, wrapAdd_mod] at hrest
    rw [ih hrest, List.map_cons, List.sum_cons, Nat.add_assoc]

theorem farmVotes_returns
    (h : ∀ farm ∈ farms, ∃ amount, (env.farm farm).earned env.timestamp account = .ok amount)
    (sum : Nat) :
    ∃ total, runs (fun sum farm => do
      let earned ← (env.farm farm).earned env.timestamp account
      pure (wrapAdd sum earned)) sum farms = .ok total := by
  induction farms generalizing sum with
  | nil => exact ⟨sum, rfl⟩
  | cons farm rest ih =>
    obtain ⟨amount, hamount⟩ := h farm List.mem_cons_self
    obtain ⟨total, htotal⟩ := ih (fun f hf => h f (List.mem_cons_of_mem farm hf)) (wrapAdd sum amount)
    refine ⟨total, (runs_cons_eq_ok _).mpr ⟨wrapAdd sum amount, ?_, htotal⟩⟩
    rw [hamount]
    rfl

theorem vestingVotes_eq (env : VotingSources) (account : Address) (vesting : List Address)
    (sum : Nat) :
    vesting.foldl (fun sum vesting =>
      if (env.vesting vesting).schedule.recipient = account
      then wrapAdd sum (env.indexToken.balanceOf vesting) else sum) (sum % uintBound) =
      (sum + ((vesting.filter fun v => (env.vesting v).schedule.recipient = account).map
        env.indexToken.balanceOf).sum) % uintBound := by
  induction vesting generalizing sum with
  | nil => rfl
  | cons v rest ih =>
    rw [List.foldl_cons]
    by_cases hv : (env.vesting v).schedule.recipient = account
    · rw [if_pos hv, wrapAdd_mod, ih,
        List.filter_cons_of_pos (by simpa using hv), List.map_cons, List.sum_cons, Nat.add_assoc]
    · rw [if_neg hv, ih, List.filter_cons_of_neg (by simpa using hv)]

theorem dexVotes_eq {lpBalance total : Nat} {pair : Address}
    (h : getDexVotesFromBalance env lpBalance pair = .ok total) :
    total = dexShare env lpBalance pair := by
  unfold getDexVotesFromBalance at h
  by_cases hsupply : (env.pair pair).totalSupply = 0
  · rw [if_pos hsupply, pure_eq_ok] at h
    rw [dexShare, hsupply, Nat.div_zero, h]
  · simp only [if_neg hsupply, bind_eq_ok, SafeMath.mul_eq_ok, SafeMath.div_eq_ok] at h
    obtain ⟨_, ⟨_, rfl⟩, _, rfl⟩ := h
    rfl

theorem dexVotes_returns {lpBalance : Nat} {pair : Address}
    (h : env.indexToken.balanceOf pair * lpBalance < uintBound) :
    getDexVotesFromBalance env lpBalance pair = .ok (dexShare env lpBalance pair) := by
  unfold getDexVotesFromBalance dexShare
  by_cases hsupply : (env.pair pair).totalSupply = 0
  · rw [if_pos hsupply, hsupply, Nat.div_zero]
    rfl
  · simp only [if_neg hsupply, bind_eq_ok, SafeMath.mul_eq_ok, SafeMath.div_eq_ok]
    exact ⟨_, ⟨h, rfl⟩, Nat.pos_of_ne_zero hsupply, rfl⟩

/-- What is listed is counted, up to overflow. -/
theorem balanceOf_eq {total : Nat} (h : p.balanceOf env account = .ok total) :
    total = votes env account p p.farms p.vesting % uintBound := by
  simp only [balanceOf, getFarmVotes, getDexVotes, getMasterChefVotes, bind_eq_ok, pure_eq_ok] at h
  obtain ⟨farmVotes, hfarms, uni, huni, sushi, hsushi, chef, hchef, rfl⟩ := h
  have hzero : (0 : Nat) % uintBound = 0 := Nat.zero_mod _
  rw [← hzero] at hfarms
  have hvesting := vestingVotes_eq env account p.vesting 0
  rw [hzero, Nat.zero_add] at hvesting
  rw [farmVotes_eq hfarms, dexVotes_eq huni, dexVotes_eq hsushi, dexVotes_eq hchef, getVestingVotes,
    hvesting, Nat.zero_add]
  simp only [wrapAdd, votes, Nat.mod_add_mod, Nat.add_mod_mod]

/-- Votes that fit are returned. -/
theorem balanceOf_returns (h : Fits env account p p.farms p.vesting) :
    p.balanceOf env account = .ok (votes env account p p.farms p.vesting) := by
  obtain ⟨farmVotes, hfarms⟩ := farmVotes_returns h.earned 0
  have hreturns : ∃ total, p.balanceOf env account = .ok total := by
    simp only [balanceOf, getFarmVotes, getDexVotes, getMasterChefVotes, bind_eq_ok, pure_eq_ok]
    exact ⟨_, farmVotes, hfarms, _, dexVotes_returns h.uni, _, dexVotes_returns h.sushi,
      _, dexVotes_returns h.masterChef, rfl⟩
  obtain ⟨total, htotal⟩ := hreturns
  rw [htotal, balanceOf_eq htotal, Nat.mod_eq_of_lt h.total]

/-! ### Runs -/

/-- The contract, with the farms and the vesting contracts that were ever passed to it. -/
structure Registered where
  powah : IndexPowah
  farms : List Address
  vesting : List Address

inductive Action where
  | addFarms (sender : Address) (newFarms : List Address)
  | addVesting (sender : Address) (newVesting : List Address)
  | updateMasterChef (sender newMasterChef : Address) (newMasterChefId : Nat)

def step (r : Registered) : Action → Result Registered
  | .addFarms sender newFarms => do
    let p ← r.powah.addFarms sender newFarms
    pure { r with powah := p, farms := r.farms ++ newFarms }
  | .addVesting sender newVesting => do
    let p ← r.powah.addVesting sender newVesting
    pure { r with powah := p, vesting := r.vesting ++ newVesting }
  | .updateMasterChef sender newMasterChef newMasterChefId => do
    let p ← r.powah.updateMasterChef sender newMasterChef newMasterChefId
    pure { r with powah := p }

/-- The votes of every account are those from all that was passed, up to the size of a word. -/
def CountsEverySource (r : Registered) : Prop :=
  ∀ env account,
    (∀ total, r.powah.balanceOf env account = .ok total →
      total = votes env account r.powah r.farms r.vesting % uintBound) ∧
    (Fits env account r.powah r.farms r.vesting →
      r.powah.balanceOf env account = .ok (votes env account r.powah r.farms r.vesting))

/-- Farms are added one at a time, or one farm several times. -/
def SameFarm (_ : Registered) : Action → Prop
  | .addFarms _ newFarms => ∀ farm ∈ newFarms, newFarms.head? = some farm
  | _ => True

/-- What is listed is what was passed. -/
structure Complete (r : Registered) : Prop where
  farms : r.powah.farms = r.farms
  vesting : r.powah.vesting = r.vesting

variable {r r' : Registered}

theorem push_all (xs ys : List Address) : ys.foldl (fun zs y => zs ++ [y]) xs = xs ++ ys := by
  induction ys generalizing xs with
  | nil => rw [List.foldl_nil, List.append_nil]
  | cons y rest ih => rw [List.foldl_cons, ih, List.append_assoc, List.singleton_append]

theorem push_first (xs ys : List Address) (first : Address) :
    ys.foldl (fun zs _ => zs ++ [first]) xs = xs ++ List.replicate ys.length first := by
  induction ys generalizing xs with
  | nil => rw [List.foldl_nil, List.length_nil, List.replicate_zero, List.append_nil]
  | cons y rest ih =>
    rw [List.foldl_cons, ih, List.append_assoc, List.singleton_append, List.length_cons,
      List.replicate_succ]

theorem addFarms_same {sender : Address} {newFarms : List Address} {q : IndexPowah}
    (hsame : ∀ farm ∈ newFarms, newFarms.head? = some farm)
    (h : p.addFarms sender newFarms = .ok q) : q = { p with farms := p.farms ++ newFarms } := by
  simp only [addFarms, bind_eq_ok, pure_eq_ok] at h
  obtain ⟨_, _, rfl⟩ := h
  rw [push_first]
  have hall : List.replicate newFarms.length (newFarms.headD 0) = newFarms := by
    rw [eq_comm, List.eq_replicate_iff]
    refine ⟨rfl, fun farm hfarm => ?_⟩
    rw [List.headD_eq_head?_getD, hsame farm hfarm, Option.getD_some]
  rw [hall]

theorem addVesting_eq {sender : Address} {newVesting : List Address} {q : IndexPowah}
    (h : p.addVesting sender newVesting = .ok q) :
    q = { p with vesting := p.vesting ++ newVesting } := by
  simp only [addVesting, bind_eq_ok, pure_eq_ok] at h
  obtain ⟨_, _, rfl⟩ := h
  rw [push_all]

theorem Complete.step {a : Action} (h : Complete r) (hsame : SameFarm r a)
    (hstep : IndexPowah.step r a = .ok r') : Complete r' := by
  cases a with
  | addFarms sender newFarms =>
    simp only [IndexPowah.step, bind_eq_ok, pure_eq_ok] at hstep
    obtain ⟨q, hq, rfl⟩ := hstep
    rw [addFarms_same hsame hq]
    exact ⟨congrArg (· ++ newFarms) h.farms, h.vesting⟩
  | addVesting sender newVesting =>
    simp only [IndexPowah.step, bind_eq_ok, pure_eq_ok] at hstep
    obtain ⟨q, hq, rfl⟩ := hstep
    rw [addVesting_eq hq]
    exact ⟨h.farms, congrArg (· ++ newVesting) h.vesting⟩
  | updateMasterChef sender newMasterChef newMasterChefId =>
    simp only [IndexPowah.step, updateMasterChef, bind_eq_ok, pure_eq_ok] at hstep
    obtain ⟨_, ⟨_, _, rfl⟩, rfl⟩ := hstep
    exact ⟨h.farms, h.vesting⟩

theorem Complete.counts (h : Complete r) : CountsEverySource r := by
  intro env account
  constructor
  · intro total htotal
    rw [balanceOf_eq htotal, h.farms, h.vesting]
  · intro hfits
    rw [← h.farms, ← h.vesting] at hfits ⊢
    exact balanceOf_returns hfits

/-- While no array of distinct farms is added, every source passed is counted, as often as it
was passed. -/
theorem counts_every_source {owner uniPair sushiPair masterChef : Address} {masterChefId : Nat}
    {farms vesting : List Address} {actions : List Action}
    (hconstruct : construct owner uniPair sushiPair masterChef masterChefId farms vesting = .ok p)
    (hsame : Along step SameFarm ⟨p, farms, vesting⟩ actions)
    (hrun : runs step ⟨p, farms, vesting⟩ actions = .ok r) : CountsEverySource r := by
  simp only [construct, bind_eq_ok, pure_eq_ok] at hconstruct
  obtain ⟨_, _, rfl⟩ := hconstruct
  exact Complete.counts <| runs_induction_along (fun r _ => Complete r)
    (fun _ _ _ _ h hsame hstep => h.step hsame hstep) ⟨rfl, rfl⟩ hsame hrun

/-! ### On fixed inputs -/

/-- Farm 11 owes account 5 one token and farm 12 owes it two. -/
def exampleSources : VotingSources where
  timestamp := 0
  indexToken := Erc20.empty
  farm := fun farm =>
    { StakingRewardsV2.construct farm 1 2 3 100 with
      rewards := fun _ => if farm = 11 then 1 else if farm = 12 then 2 else 0 }
  vesting := fun vesting => .vesting ⟨vesting, 1, 0, 0, 0, 1, 0⟩
  pair := fun _ => Erc20.empty
  userInfo := fun _ _ _ => 0

def exampleStart (farms : List Address) : Registered := ⟨⟨7, 3, 0, 8, 9, farms, []⟩, farms, []⟩

theorem counts_every_source_example :
    ∃ r, runs step (exampleStart [11]) [.addFarms 7 [12], .addFarms 7 [11, 11],
      .updateMasterChef 7 4 1] = .ok r ∧ CountsEverySource r := by
  have h : (do
      let _ ← runs step (exampleStart [11]) [.addFarms 7 [12], .addFarms 7 [11, 11],
        .updateMasterChef 7 4 1]) = .ok () := by decide +kernel
  simp only [bind_eq_ok, pure_eq_ok] at h
  obtain ⟨r, hrun, _⟩ := h
  have hconstruct : construct 7 8 9 3 0 [11] [] = .ok (exampleStart [11]).powah := rfl
  refine ⟨r, hrun, counts_every_source hconstruct ?_ hrun⟩
  refine ⟨by simp [SameFarm], fun _ _ => ⟨by simp [SameFarm], fun _ _ => ⟨trivial, fun _ _ => trivial⟩⟩⟩

/-- Farms 11 and 12 are added together, and farm 11 is counted twice. -/
theorem addFarms_drops_farm :
    construct 7 8 9 3 0 [] [] = .ok (exampleStart []).powah ∧
      ∃ r, runs step (exampleStart []) [.addFarms 7 [11, 12]] = .ok r ∧ ¬CountsEverySource r := by
  have h : (do
      let r ← runs step (exampleStart []) [.addFarms 7 [11, 12]]
      let total ← r.powah.balanceOf exampleSources 5
      require (total = 2 ∧ votes exampleSources 5 r.powah r.farms r.vesting = 3) "") = .ok () := by
    decide +kernel
  simp only [bind_eq_ok, require_eq_ok] at h
  obtain ⟨r, hrun, total, htotal, rfl, hvotes⟩ := h
  refine ⟨rfl, r, hrun, fun hcounts => ?_⟩
  have hmod := (hcounts exampleSources 5).1 2 htotal
  rw [hvotes] at hmod
  exact absurd hmod (by decide)

end IndexPowah

end IndexProtocol
