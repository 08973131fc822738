import IndexProtocol.Accumulator
import IndexProtocol.Erc20

/-! The StakingRewardsV2 contract.

Stakers share a reward that is paid out at a constant rate until the period ends.
The reward per staked token is an accumulator, in units of 1e-18 of a reward token,
brought up to date by every call that changes a stake or the rate. The tokens make
no calls back, so the reentrancy guard has nothing to stop and is left out. -/
namespace IndexProtocol
open Evm

structure StakingRewardsV2 where
  self : Address
  rewardsDistribution : Address
  rewardsToken : Address
  stakingToken : Address
  periodFinish : Nat
  rewardRate : Nat
  rewardsDuration : Nat
  lastUpdateTime : Nat
  rewardPerTokenStored : Nat
  userRewardPerTokenPaid : Address → Nat
  rewards : Address → Nat
  totalSupply : Nat
  balances : Address → Nat

/-- The contract among tokens, at a time. -/
structure StakingWorld where
  staking : StakingRewardsV2
  tokens : Address → Erc20
  timestamp : Nat

namespace StakingRewardsV2

def construct (self rewardsDistribution rewardsToken stakingToken : Address)
    (rewardsDuration : Nat) : StakingRewardsV2 where
  self := self
  rewardsDistribution := rewardsDistribution
  rewardsToken := rewardsToken
  stakingToken := stakingToken
  periodFinish := 0
  rewardRate := 0
  rewardsDuration := rewardsDuration
  lastUpdateTime := 0
  rewardPerTokenStored := 0
  userRewardPerTokenPaid := fun _ => 0
  rewards := fun _ => 0
  totalSupply := 0
  balances := fun _ => 0

/-- What one is in units of the accumulator. -/
def rewardScale : Nat := 10 ^ 18

section Views
variable (s : StakingRewardsV2) (timestamp : Nat)

def lastTimeRewardApplicable : Nat := min timestamp s.periodFinish

def rewardPerToken : Result Nat :=
  if s.totalSupply = 0 then pure s.rewardPerTokenStored
  else do
    let elapsed ← SafeMath.sub (s.lastTimeRewardApplicable timestamp) s.lastUpdateTime
    let reward ← SafeMath.mul elapsed s.rewardRate
    let scaled ← SafeMath.mul reward rewardScale
    let perToken ← SafeMath.div scaled s.totalSupply
    SafeMath.add s.rewardPerTokenStored perToken

def earned (account : Address) : Result Nat := do
  let current ← s.rewardPerToken timestamp
  let gained ← SafeMath.sub current (s.userRewardPerTokenPaid account)
  let product ← SafeMath.mul (s.balances account) gained
  let quotient ← SafeMath.div product rewardScale
  SafeMath.add quotient (s.rewards account)

/-- The modifier. The reward of the zero address is not written. -/
def updateReward (account : Address) : Result StakingRewardsV2 := do
  let rewardPerTokenStored ← s.rewardPerToken timestamp
  let s := { s with rewardPerTokenStored := rewardPerTokenStored }
  let s := { s with lastUpdateTime := s.lastTimeRewardApplicable timestamp }
  if account ≠ 0 then
    let reward ← s.earned timestamp account
    let s := { s with rewards := Function.update s.rewards account reward }
    pure { s with userRewardPerTokenPaid :=
      Function.update s.userRewardPerTokenPaid account s.rewardPerTokenStored }
  else pure s

end Views

section Calls
variable (w : StakingWorld) (sender : Address)

/-- A call of a token, after the contract's own writes. -/
def callToken (s : StakingRewardsV2) (token : Address) (call : Erc20 → Result Erc20) :
    Result StakingWorld := do
  let t ← call (w.tokens token)
  pure { w with staking := s, tokens := Function.update w.tokens token t }

def stake (amount : Nat) : Result StakingWorld := do
  let s ← w.staking.updateReward w.timestamp sender
  require (0 < amount) "Cannot stake 0"
  let totalSupply ← SafeMath.add s.totalSupply amount
  let balance ← SafeMath.add (s.balances sender) amount
  let s := { s with totalSupply := totalSupply, balances := Function.update s.balances sender balance }
  callToken w s s.stakingToken (·.transferFrom s.self sender s.self amount)

def withdraw (amount : Nat) : Result StakingWorld := do
  let s ← w.staking.updateReward w.timestamp sender
  require (0 < amount) "Cannot withdraw 0"
  let totalSupply ← SafeMath.sub s.totalSupply amount
  let balance ← SafeMath.sub (s.balances sender) amount
  let s := { s with totalSupply := totalSupply, balances := Function.update s.balances sender balance }
  callToken w s s.stakingToken (·.transfer s.self sender amount)

def getReward : Result StakingWorld := do
  let s ← w.staking.updateReward w.timestamp sender
  let reward := s.rewards sender
  if 0 < reward then
    let s := { s with rewards := Function.update s.rewards sender 0 }
    callToken w s s.rewardsToken (·.transfer s.self sender reward)
  else pure { w with staking := s }

def exit : Result StakingWorld := do
  let w ← withdraw w sender (w.staking.balances sender)
  getReward w sender

def notifyRewardAmount (reward : Nat) : Result StakingWorld := do
  require (sender = w.staking.rewardsDistribution) "Caller is not RewardsDistribution contract"
  let s ← w.staking.updateReward w.timestamp 0
  let rewardRate ← (if s.periodFinish ≤ w.timestamp then SafeMath.div reward s.rewardsDuration
    else do
      let remaining ← SafeMath.sub s.periodFinish w.timestamp
      let leftover ← SafeMath.mul remaining s.rewardRate
      let sum ← SafeMath.add reward leftover
      SafeMath.div sum s.rewardsDuration)
  let balance := (w.tokens s.rewardsToken).balanceOf s.self
  let payable ← SafeMath.div balance s.rewardsDuration
  require (rewardRate ≤ payable) "Provided reward too high"
  let periodFinish ← SafeMath.add w.timestamp s.rewardsDuration
  pure { w with staking := { s with
    rewardRate := rewardRate
    lastUpdateTime := w.timestamp
    periodFinish := periodFinish } }

end Calls

/-! ### The accumulator -/

variable (s : StakingRewardsV2) (timestamp : Nat)

/-- What the stakers share. -/
def accumulator : Accumulator Address where
  shares := s.balances
  settled := s.userRewardPerTokenPaid
  owed := s.rewards

/-- `rewardPerToken` in unbounded integers. -/
def exactRewardPerToken : Nat :=
  s.rewardPerTokenStored + (s.lastTimeRewardApplicable timestamp - s.lastUpdateTime) *
    s.rewardRate * rewardScale / s.totalSupply

/-- `earned` in unbounded integers. -/
def exactEarned (account : Address) : Nat :=
  s.accumulator.claim rewardScale (s.exactRewardPerToken timestamp) account

variable {s timestamp} {account : Address} {amount : Nat} {t : StakingRewardsV2}

theorem rewardScale_pos : 0 < rewardScale := by decide

theorem rewardPerToken_exact (h : s.rewardPerToken timestamp = .ok amount) :
    amount = s.exactRewardPerToken timestamp := by
  unfold rewardPerToken at h
  by_cases hsupply : s.totalSupply = 0
  · rw [if_pos hsupply, pure_eq_ok] at h
    rw [exactRewardPerToken, hsupply, Nat.div_zero, ← h, Nat.add_zero]
  · simp only [if_neg hsupply, bind_eq_ok, SafeMath.sub_eq_ok, SafeMath.mul_eq_ok,
      SafeMath.div_eq_ok, SafeMath.add_eq_ok] at h
    obtain ⟨_, ⟨_, rfl⟩, _, ⟨_, rfl⟩, _, ⟨_, rfl⟩, _, ⟨_, rfl⟩, _, rfl⟩ := h
    rfl

theorem earned_exact (h : s.earned timestamp account = .ok amount) :
    amount = s.exactEarned timestamp account := by
  simp only [earned, bind_eq_ok, SafeMath.sub_eq_ok, SafeMath.mul_eq_ok, SafeMath.div_eq_ok,
    SafeMath.add_eq_ok] at h
  obtain ⟨_, hcurrent, _, ⟨_, rfl⟩, _, ⟨_, rfl⟩, _, ⟨_, rfl⟩, _, rfl⟩ := h
  rw [rewardPerToken_exact hcurrent]
  rfl

/-! ### Bringing the accumulator up to date -/

/-- The accumulator is written, for the time until now. -/
def advanced (s : StakingRewardsV2) (timestamp stored : Nat) : StakingRewardsV2 :=
  { s with
    rewardPerTokenStored := stored
    lastUpdateTime := s.lastTimeRewardApplicable timestamp }

/-- What an account has earned until the last update is recorded. -/
def settled (s : StakingRewardsV2) (account : Address) : StakingRewardsV2 :=
  { s with
    rewards := Function.update s.rewards account
      (s.accumulator.claim rewardScale s.rewardPerTokenStored account)
    userRewardPerTokenPaid :=
      Function.update s.userRewardPerTokenPaid account s.rewardPerTokenStored }

/-- Once brought up to date, the accumulator stays for the rest of the call. -/
theorem exactRewardPerToken_of_current
    (h : s.lastUpdateTime = s.lastTimeRewardApplicable timestamp) :
    s.exactRewardPerToken timestamp = s.rewardPerTokenStored := by
  rw [exactRewardPerToken, h, Nat.sub_self, Nat.zero_mul, Nat.zero_mul, Nat.zero_div, Nat.add_zero]

/-- Every account is settled but the zero address. -/
theorem updateReward_eq (h : s.updateReward timestamp account = .ok t) :
    (account = 0 ∧ s.advanced timestamp (s.exactRewardPerToken timestamp) = t) ∨
      (account ≠ 0 ∧
        (s.advanced timestamp (s.exactRewardPerToken timestamp)).settled account = t) := by
  simp only [updateReward, bind_eq_ok] at h
  obtain ⟨stored, hstored, h⟩ := h
  rw [← rewardPerToken_exact hstored]
  by_cases haccount : account = 0
  · rw [if_neg (not_not.mpr haccount), pure_eq_ok] at h
    exact .inl ⟨haccount, h⟩
  · rw [if_pos haccount] at h
    simp only [bind_eq_ok, pure_eq_ok] at h
    obtain ⟨reward, hreward, h⟩ := h
    have hexact : reward = (s.advanced timestamp stored).exactEarned timestamp account :=
      earned_exact hreward
    rw [exactEarned, exactRewardPerToken_of_current rfl] at hexact
    rw [hexact] at h
    exact .inr ⟨haccount, h⟩

/-! The accounting reverts for reasons of its own only. -/

theorem rewardPerToken_ne :
    s.rewardPerToken timestamp ≠ .error "ERC20: transfer amount exceeds balance" := by
  unfold rewardPerToken
  split
  · exact pure_ne_error
  · simp only [ne_eq, bind_eq_error, SafeMath.sub_eq_error, SafeMath.mul_eq_error,
      SafeMath.div_eq_error, SafeMath.add_eq_error, String.reduceEq, and_false, or_false,
      exists_false, not_false_eq_true]

theorem earned_ne :
    s.earned timestamp account ≠ .error "ERC20: transfer amount exceeds balance" := by
  simp only [earned, ne_eq, bind_eq_error, rewardPerToken_ne, SafeMath.sub_eq_error,
    SafeMath.mul_eq_error, SafeMath.div_eq_error, SafeMath.add_eq_error, String.reduceEq, and_false,
    or_false, exists_false, not_false_eq_true]

theorem updateReward_ne :
    s.updateReward timestamp account ≠ .error "ERC20: transfer amount exceeds balance" := by
  simp only [updateReward, ne_eq, bind_eq_error, rewardPerToken_ne, false_or, not_exists, not_and]
  intro stored _
  split
  · simp only [bind_eq_error, earned_ne, pure_ne_error, and_false, or_false, exists_false,
      not_false_eq_true]
  · exact pure_ne_error

end StakingRewardsV2

end IndexProtocol
