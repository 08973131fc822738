import IndexProtocol.Staking.Rewards

/-! What StakingRewardsV2 owes and what it holds.

Without rounding, what the stakers could claim, what the rate pays until the period
ends and what was received and not yet notified are together covered by the reward
tokens held. Every call keeps that: bringing the accumulator up to date moves the
reward of the elapsed time to the stakers, and a notification spreads what is left of
the old period and what was received over the new one. -/
namespace IndexProtocol
open Evm

/-- There are finitely many accounts to add up over. -/
instance : Fintype Address :=
  Fintype.ofEquiv (Fin (2 ^ 160)) ⟨BitVec.ofFin, BitVec.toFin, fun _ => rfl, fun _ => rfl⟩

namespace StakingRewardsV2

/-- The contract owes no more than it holds, at a time. `unnotified` are the reward tokens received
for which no reward was notified yet. -/
structure Solvent (s : StakingRewardsV2) (timestamp rewardsHeld stakesHeld unnotified : Nat) :
    Prop where
  settled_le : ∀ account, s.accumulator.settled account ≤ s.rewardPerTokenStored
  update_le : s.lastUpdateTime ≤ s.lastTimeRewardApplicable timestamp
  shares : s.accumulator.totalShares = s.totalSupply
  held : s.totalSupply = stakesHeld
  no_zero : s.balances 0 = 0
  funded : s.accumulator.liability rewardScale s.rewardPerTokenStored +
      (s.rewardRate * (s.periodFinish - s.lastUpdateTime) + unnotified) * rewardScale ≤
    rewardsHeld * rewardScale

namespace Solvent
variable {s : StakingRewardsV2} {timestamp rewardsHeld stakesHeld unnotified : Nat}

/-- The liability at a time, the reward of the elapsed time included. -/
theorem liability_now (h : Solvent s timestamp rewardsHeld stakesHeld unnotified) :
    s.accumulator.liability rewardScale (s.exactRewardPerToken timestamp) +
        (s.rewardRate * (s.periodFinish - s.lastTimeRewardApplicable timestamp) + unnotified) *
          rewardScale ≤
      rewardsHeld * rewardScale := by
  have hshare := s.accumulator.liability_share rewardScale h.settled_le
    ((s.lastTimeRewardApplicable timestamp - s.lastUpdateTime) * s.rewardRate * rewardScale)
  rw [h.shares] at hshare
  have hfinish : s.lastTimeRewardApplicable timestamp ≤ s.periodFinish := min_le_right _ _
  have helapsed : s.periodFinish - s.lastUpdateTime =
      (s.lastTimeRewardApplicable timestamp - s.lastUpdateTime) +
        (s.periodFinish - s.lastTimeRewardApplicable timestamp) := by
    have := h.update_le
    omega
  have hfunded := h.funded
  rw [helapsed] at hfunded
  refine le_trans ?_ hfunded
  calc s.accumulator.liability rewardScale (s.exactRewardPerToken timestamp) +
        (s.rewardRate * (s.periodFinish - s.lastTimeRewardApplicable timestamp) + unnotified) *
          rewardScale
      ≤ s.accumulator.liability rewardScale s.rewardPerTokenStored +
          (s.lastTimeRewardApplicable timestamp - s.lastUpdateTime) * s.rewardRate * rewardScale +
        (s.rewardRate * (s.periodFinish - s.lastTimeRewardApplicable timestamp) + unnotified) *
          rewardScale := Nat.add_le_add_right hshare _
    _ = _ := by ring

theorem settled_le_now (h : Solvent s timestamp rewardsHeld stakesHeld unnotified)
    (account : Address) : s.accumulator.settled account ≤ s.exactRewardPerToken timestamp :=
  (h.settled_le account).trans (Nat.le_add_right _ _)

theorem advanced (h : Solvent s timestamp rewardsHeld stakesHeld unnotified) :
    Solvent (s.advanced timestamp (s.exactRewardPerToken timestamp)) timestamp rewardsHeld
      stakesHeld unnotified where
  settled_le := h.settled_le_now
  update_le := le_rfl
  shares := h.shares
  held := h.held
  no_zero := h.no_zero
  funded := h.liability_now

theorem settled (h : Solvent s timestamp rewardsHeld stakesHeld unnotified) (account : Address) :
    Solvent (s.settled account) timestamp rewardsHeld stakesHeld unnotified where
  settled_le := Accumulator.settled_settle_le h.settled_le
  update_le := h.update_le
  shares := h.shares
  held := h.held
  no_zero := h.no_zero
  funded := by
    have hsettle := s.accumulator.liability_settle rewardScale s.rewardPerTokenStored account
    exact (Nat.add_le_add_right hsettle _).trans h.funded

/-- What a call that updates rewards starts from. -/
theorem updateReward (h : Solvent s timestamp rewardsHeld stakesHeld unnotified)
    {account : Address} {t : StakingRewardsV2} (ht : s.updateReward timestamp account = .ok t) :
    Solvent t timestamp rewardsHeld stakesHeld unnotified ∧
      t.lastUpdateTime = t.lastTimeRewardApplicable timestamp ∧
      (account ≠ 0 → t.userRewardPerTokenPaid account = t.rewardPerTokenStored) := by
  rcases updateReward_eq ht with ⟨hzero, rfl⟩ | ⟨_, rfl⟩
  · exact ⟨h.advanced, rfl, fun hne => absurd hzero hne⟩
  · exact ⟨h.advanced.settled account, rfl, fun _ => Function.update_self ..⟩

/-- A settled account changes its stake, and the tokens move with it. -/
theorem setBalance (h : Solvent s timestamp rewardsHeld stakesHeld unnotified) {account : Address}
    (haccount : account ≠ 0)
    (hsettled : s.userRewardPerTokenPaid account = s.rewardPerTokenStored)
    {balance totalSupply stakesHeld' : Nat}
    (hsupply : totalSupply + s.balances account = s.totalSupply + balance)
    (hheld : totalSupply = stakesHeld') :
    Solvent { s with
        totalSupply := totalSupply
        balances := Function.update s.balances account balance }
      timestamp rewardsHeld stakesHeld' unnotified where
  settled_le := h.settled_le
  update_le := h.update_le
  shares := by
    have htotal := s.accumulator.totalShares_setShares account balance
    rw [h.shares] at htotal
    exact Nat.add_right_cancel (htotal.trans hsupply.symm)
  held := hheld
  no_zero := by
    show Function.update s.balances account balance 0 = 0
    rw [Function.update_of_ne (Ne.symm haccount)]
    exact h.no_zero
  funded := by
    have haccumulator : s.accumulator.settled account = s.rewardPerTokenStored := hsettled
    have hsame := Accumulator.liability_setShares rewardScale balance haccumulator
    have hfunded := h.funded
    rw [← hsame] at hfunded
    exact hfunded

/-- A recorded reward is paid. -/
theorem paid (h : Solvent s timestamp rewardsHeld stakesHeld unnotified) {account : Address}
    {rewardsHeld' : Nat} (hpaid : rewardsHeld' + s.rewards account = rewardsHeld) :
    Solvent { s with rewards := Function.update s.rewards account 0 } timestamp rewardsHeld'
      stakesHeld unnotified where
  settled_le := h.settled_le
  update_le := h.update_le
  shares := h.shares
  held := h.held
  no_zero := h.no_zero
  funded := by
    have hliability := s.accumulator.liability_pay rewardScale s.rewardPerTokenStored account
    have hfunded := h.funded
    rw [← hliability, ← hpaid, Nat.add_mul rewardsHeld', Nat.add_right_comm] at hfunded
    exact Nat.le_of_add_le_add_right hfunded

/-- What is recorded can be paid. -/
theorem reward_le (h : Solvent s timestamp rewardsHeld stakesHeld unnotified) (account : Address) :
    s.rewards account ≤ rewardsHeld := by
  have hliability := s.accumulator.liability_pay rewardScale s.rewardPerTokenStored account
  have hfunded := h.funded
  rw [← hliability] at hfunded
  refine Nat.le_of_mul_le_mul_right ?_ rewardScale_pos
  exact le_trans ((Nat.le_add_left _ _).trans (Nat.le_add_right _ _)) hfunded

theorem balance_le (h : Solvent s timestamp rewardsHeld stakesHeld unnotified) (account : Address) :
    s.balances account ≤ stakesHeld := by
  rw [← h.held, ← h.shares]
  exact Finset.single_le_sum (fun _ _ => Nat.zero_le _) (Finset.mem_univ account)

/-- More reward tokens arrive. -/
theorem received (h : Solvent s timestamp rewardsHeld stakesHeld unnotified)
    {rewardsHeld' amount : Nat} (hheld : rewardsHeld + amount ≤ rewardsHeld') :
    Solvent s timestamp rewardsHeld' stakesHeld (unnotified + amount) where
  settled_le := h.settled_le
  update_le := h.update_le
  shares := h.shares
  held := h.held
  no_zero := h.no_zero
  funded := by
    refine le_trans ?_ (Nat.mul_le_mul_right _ hheld)
    rw [← Nat.add_assoc, Nat.add_mul _ amount, ← Nat.add_assoc, Nat.add_mul rewardsHeld]
    exact Nat.add_le_add_right h.funded _

/-- Time passes. -/
theorem later (h : Solvent s timestamp rewardsHeld stakesHeld unnotified) {timestamp' : Nat}
    (hle : timestamp ≤ timestamp') : Solvent s timestamp' rewardsHeld stakesHeld unnotified where
  settled_le := h.settled_le
  update_le := h.update_le.trans (min_le_min_right _ hle)
  shares := h.shares
  held := h.held
  no_zero := h.no_zero
  funded := h.funded

/-- A reward that was received is spread over a new period, with what is left of the old one. -/
theorem notified (h : Solvent s timestamp rewardsHeld stakesHeld unnotified)
    (hcurrent : s.lastUpdateTime = s.lastTimeRewardApplicable timestamp) {reward rate : Nat}
    (hreward : reward ≤ unnotified)
    (hrate : rate * s.rewardsDuration ≤ reward + s.rewardRate * (s.periodFinish - timestamp)) :
    Solvent { s with
        rewardRate := rate
        lastUpdateTime := timestamp
        periodFinish := timestamp + s.rewardsDuration }
      timestamp rewardsHeld stakesHeld (unnotified - reward) where
  settled_le := h.settled_le
  update_le := Nat.le_min.mpr ⟨le_rfl, Nat.le_add_right _ _⟩
  shares := h.shares
  held := h.held
  no_zero := h.no_zero
  funded := by
    have hleft : s.periodFinish - s.lastUpdateTime = s.periodFinish - timestamp := by
      rw [hcurrent, lastTimeRewardApplicable]
      omega
    have hfunded := h.funded
    rw [hleft] at hfunded
    refine le_trans (Nat.add_le_add_left (Nat.mul_le_mul_right _ ?_) _) hfunded
    show rate * (timestamp + s.rewardsDuration - timestamp) + (unnotified - reward) ≤ _
    rw [Nat.add_sub_cancel_left]
    omega

/-- What all could claim, and what the rate pays until the period ends. -/
theorem earned_le (h : Solvent s timestamp rewardsHeld stakesHeld unnotified) :
    (∑ account, s.exactEarned timestamp account) + s.rewardRate * (s.periodFinish - timestamp) ≤
      rewardsHeld := by
  have hclaims := s.accumulator.sum_claim_mul_le rewardScale (s.exactRewardPerToken timestamp)
  have hnow := h.liability_now
  have hleft : s.periodFinish - timestamp =
      s.periodFinish - s.lastTimeRewardApplicable timestamp := by
    unfold lastTimeRewardApplicable
    omega
  refine Nat.le_of_mul_le_mul_right ?_ rewardScale_pos
  rw [hleft, Nat.add_mul]
  refine le_trans (Nat.add_le_add hclaims (Nat.mul_le_mul_right _ ?_)) hnow
  exact Nat.le_add_right _ _

end Solvent

end StakingRewardsV2

/-! ### Calls -/

namespace StakingWorld
open StakingRewardsV2

def rewardsHeld (w : StakingWorld) : Nat :=
  (w.tokens w.staking.rewardsToken).balanceOf w.staking.self

def stakesHeld (w : StakingWorld) : Nat :=
  (w.tokens w.staking.stakingToken).balanceOf w.staking.self

/-- The contract is solvent, with two different tokens. -/
structure Solvent (w : StakingWorld) (unnotified : Nat) : Prop where
  apart : w.staking.rewardsToken ≠ w.staking.stakingToken
  solvent : w.staking.Solvent w.timestamp w.rewardsHeld w.stakesHeld unnotified

variable {w v : StakingWorld} {s : StakingRewardsV2} {t : Erc20} {sender : Address}
  {amount reward unnotified : Nat}

/-- The addresses are set once. -/
structure SameAddresses (s t : StakingRewardsV2) : Prop where
  self : t.self = s.self
  rewardsToken : t.rewardsToken = s.rewardsToken
  stakingToken : t.stakingToken = s.stakingToken

theorem updateReward_same {s t : StakingRewardsV2} {timestamp : Nat} {account : Address}
    (h : s.updateReward timestamp account = .ok t) : SameAddresses s t := by
  rcases updateReward_eq h with ⟨_, rfl⟩ | ⟨_, rfl⟩
  · exact ⟨rfl, rfl, rfl⟩
  · exact ⟨rfl, rfl, rfl⟩

theorem callToken_eq_ok {token : Address} {call : Erc20 → Result Erc20} :
    callToken w s token call = .ok v ↔ ∃ t, call (w.tokens token) = .ok t ∧
      { w with staking := s, tokens := Function.update w.tokens token t } = v := by
  simp [callToken]

/-- The ledger of the staking token changed. -/
theorem Solvent.of_stakes (hsame : SameAddresses w.staking s) (hw : w.Solvent unnotified)
    (hs : s.Solvent w.timestamp w.rewardsHeld (t.balanceOf w.staking.self) unnotified) :
    Solvent { w with staking := s, tokens := Function.update w.tokens s.stakingToken t }
      unnotified := by
  have hapart : s.rewardsToken ≠ s.stakingToken := by
    rw [hsame.rewardsToken, hsame.stakingToken]
    exact hw.apart
  refine ⟨hapart, ?_⟩
  have hrewards : (Function.update w.tokens s.stakingToken t) s.rewardsToken =
      w.tokens w.staking.rewardsToken := by
    rw [Function.update_of_ne hapart, hsame.rewardsToken]
  show s.Solvent w.timestamp ((Function.update w.tokens s.stakingToken t s.rewardsToken).balanceOf
    s.self) ((Function.update w.tokens s.stakingToken t s.stakingToken).balanceOf s.self) unnotified
  rw [hrewards, Function.update_self, hsame.self]
  exact hs

/-- The ledger of the rewards token changed. -/
theorem Solvent.of_rewards (hsame : SameAddresses w.staking s) (hw : w.Solvent unnotified)
    {unnotified' : Nat}
    (hs : s.Solvent w.timestamp (t.balanceOf w.staking.self) w.stakesHeld unnotified') :
    Solvent { w with staking := s, tokens := Function.update w.tokens s.rewardsToken t }
      unnotified' := by
  have hapart : s.rewardsToken ≠ s.stakingToken := by
    rw [hsame.rewardsToken, hsame.stakingToken]
    exact hw.apart
  refine ⟨hapart, ?_⟩
  have hstakes : (Function.update w.tokens s.rewardsToken t) s.stakingToken =
      w.tokens w.staking.stakingToken := by
    rw [Function.update_of_ne hapart.symm, hsame.stakingToken]
  show s.Solvent w.timestamp ((Function.update w.tokens s.rewardsToken t s.rewardsToken).balanceOf
    s.self) ((Function.update w.tokens s.rewardsToken t s.stakingToken).balanceOf s.self) unnotified'
  rw [hstakes, Function.update_self, hsame.self]
  exact hs

/-- Neither ledger changed. -/
theorem Solvent.of_staking (hsame : SameAddresses w.staking s) (hw : w.Solvent unnotified)
    {unnotified' : Nat} (hs : s.Solvent w.timestamp w.rewardsHeld w.stakesHeld unnotified') :
    Solvent { w with staking := s } unnotified' := by
  refine ⟨?_, ?_⟩
  · show s.rewardsToken ≠ s.stakingToken
    rw [hsame.rewardsToken, hsame.stakingToken]
    exact hw.apart
  · show s.Solvent w.timestamp ((w.tokens s.rewardsToken).balanceOf s.self)
      ((w.tokens s.stakingToken).balanceOf s.self) unnotified'
    rw [hsame.rewardsToken, hsame.stakingToken, hsame.self]
    exact hs

theorem stake_solvent (hw : w.Solvent unnotified) (hsender : sender ≠ w.staking.self)
    (h : stake w sender amount = .ok v) : v.Solvent unnotified := by
  simp only [stake, bind_eq_ok, require_eq_ok, SafeMath.add_eq_ok, callToken_eq_ok] at h
  obtain ⟨s, hupdate, _, _, _, ⟨_, rfl⟩, _, ⟨_, rfl⟩, t, htransfer, rfl⟩ := h
  have hsame := updateReward_same hupdate
  obtain ⟨hs, _, hsettled⟩ := hw.solvent.updateReward hupdate
  obtain ⟨hmoved, _⟩ := Erc20.transferFrom_moved htransfer
  rw [hsame.self, hsame.stakingToken] at hmoved
  have hzero : sender ≠ 0 := by
    rintro rfl
    simp [Erc20.transferFrom, Erc20.transferInternal] at htransfer
  refine Solvent.of_stakes ⟨hsame.self, hsame.rewardsToken, hsame.stakingToken⟩ hw ?_
  refine hs.setBalance hzero (hsettled hzero) (by omega) ?_
  rw [hmoved.at_recipient hsender, hs.held]
  rfl

theorem withdraw_solvent (hw : w.Solvent unnotified) (hsender : sender ≠ w.staking.self)
    (h : withdraw w sender amount = .ok v) : v.Solvent unnotified := by
  simp only [withdraw, bind_eq_ok, require_eq_ok, SafeMath.sub_eq_ok, callToken_eq_ok] at h
  obtain ⟨s, hupdate, _, hpos, _, ⟨hsupply, rfl⟩, _, ⟨hbalance, rfl⟩, t, htransfer, rfl⟩ := h
  have hsame := updateReward_same hupdate
  obtain ⟨hs, _, hsettled⟩ := hw.solvent.updateReward hupdate
  obtain ⟨hmoved, _⟩ := Erc20.transferInternal_moved htransfer
  rw [hsame.self, hsame.stakingToken] at hmoved
  have hzero : sender ≠ 0 := by
    rintro rfl
    rw [hs.no_zero] at hbalance
    omega
  refine Solvent.of_stakes ⟨hsame.self, hsame.rewardsToken, hsame.stakingToken⟩ hw ?_
  refine hs.setBalance hzero (hsettled hzero) (by omega) ?_
  have hpaid := hmoved.at_sender hsender.symm
  have hheld := hs.held
  rw [stakesHeld] at hheld
  omega

theorem getReward_solvent (hw : w.Solvent unnotified) (hsender : sender ≠ w.staking.self)
    (h : getReward w sender = .ok v) : v.Solvent unnotified := by
  simp only [getReward, bind_eq_ok] at h
  obtain ⟨s, hupdate, h⟩ := h
  have hsame := updateReward_same hupdate
  obtain ⟨hs, _⟩ := hw.solvent.updateReward hupdate
  by_cases hreward : 0 < s.rewards sender
  · rw [if_pos hreward, callToken_eq_ok] at h
    obtain ⟨t, htransfer, rfl⟩ := h
    obtain ⟨hmoved, _⟩ := Erc20.transferInternal_moved htransfer
    rw [hsame.self, hsame.rewardsToken] at hmoved
    have hpaid := hs.paid (hmoved.at_sender hsender.symm)
    have hsame' : SameAddresses w.staking
        { s with rewards := Function.update s.rewards sender 0 } :=
      ⟨hsame.self, hsame.rewardsToken, hsame.stakingToken⟩
    exact Solvent.of_rewards hsame' hw hpaid
  · rw [if_neg hreward, pure_eq_ok] at h
    subst h
    exact Solvent.of_staking hsame hw hs

theorem exit_solvent (hw : w.Solvent unnotified) (hsender : sender ≠ w.staking.self)
    (h : exit w sender = .ok v) : v.Solvent unnotified := by
  simp only [exit, bind_eq_ok] at h
  obtain ⟨u, hwithdraw, hreward⟩ := h
  have hself : u.staking.self = w.staking.self := by
    simp only [withdraw, bind_eq_ok, callToken_eq_ok] at hwithdraw
    obtain ⟨s, hupdate, _, _, _, _, _, _, _, _, rfl⟩ := hwithdraw
    exact (updateReward_same hupdate).self
  exact getReward_solvent (withdraw_solvent hw hsender hwithdraw) (hself ▸ hsender) hreward

theorem notifyRewardAmount_solvent (hw : w.Solvent unnotified) (hreward : reward ≤ unnotified)
    (h : notifyRewardAmount w sender reward = .ok v) : v.Solvent (unnotified - reward) := by
  simp only [notifyRewardAmount, bind_eq_ok, SafeMath.add_eq_ok, SafeMath.div_eq_ok, pure_eq_ok] at h
  obtain ⟨_, _, s, hupdate, rate, hrate, _, _, _, _, _, ⟨_, rfl⟩, rfl⟩ := h
  have hsame := updateReward_same hupdate
  obtain ⟨hs, hcurrent, _⟩ := hw.solvent.updateReward hupdate
  have hspread : rate * s.rewardsDuration ≤
      reward + s.rewardRate * (s.periodFinish - w.timestamp) := by
    by_cases hover : s.periodFinish ≤ w.timestamp
    · rw [if_pos hover, SafeMath.div_eq_ok] at hrate
      obtain ⟨_, rfl⟩ := hrate
      exact (Nat.div_mul_le_self _ _).trans (Nat.le_add_right _ _)
    · rw [if_neg hover] at hrate
      simp only [bind_eq_ok, SafeMath.sub_eq_ok, SafeMath.mul_eq_ok, SafeMath.add_eq_ok,
        SafeMath.div_eq_ok] at hrate
      obtain ⟨_, ⟨_, rfl⟩, _, ⟨_, rfl⟩, _, ⟨_, rfl⟩, _, rfl⟩ := hrate
      rw [Nat.mul_comm s.rewardRate]
      exact Nat.div_mul_le_self _ _
  have hsame' : SameAddresses w.staking { s with
      rewardRate := rate
      lastUpdateTime := w.timestamp
      periodFinish := w.timestamp + s.rewardsDuration } :=
    ⟨hsame.self, hsame.rewardsToken, hsame.stakingToken⟩
  exact Solvent.of_staking hsame' hw (hs.notified hcurrent hreward hspread)

/-! No call of a staker finds the contract without the tokens. -/

theorem callToken_ne {token : Address} {call : Erc20 → Result Erc20} {reason : String}
    (h : call (w.tokens token) ≠ .error reason) : callToken w s token call ≠ .error reason := by
  simp only [callToken, ne_eq, bind_eq_error, h, pure_ne_error, and_false, or_false, exists_false,
    not_false_eq_true]

theorem withdraw_funded (hw : w.Solvent unnotified) :
    withdraw w sender amount ≠ .error "ERC20: transfer amount exceeds balance" := by
  simp only [withdraw, ne_eq, bind_eq_error, updateReward_ne, require_eq_error,
    SafeMath.sub_eq_error, SafeMath.sub_eq_ok, String.reduceEq, and_false, false_or, not_exists,
    not_and]
  rintro s hupdate _ _ _ _ _ ⟨hbalance, _⟩
  have hsame := updateReward_same hupdate
  obtain ⟨hs, _⟩ := hw.solvent.updateReward hupdate
  refine callToken_ne (Erc20.transferInternal_funded ?_)
  show amount ≤ (w.tokens s.stakingToken).balanceOf s.self
  rw [hsame.stakingToken, hsame.self]
  exact hbalance.trans (hs.balance_le sender)

theorem getReward_funded (hw : w.Solvent unnotified) :
    getReward w sender ≠ .error "ERC20: transfer amount exceeds balance" := by
  simp only [getReward, ne_eq, bind_eq_error, updateReward_ne, false_or, not_exists, not_and]
  intro s hupdate
  have hsame := updateReward_same hupdate
  obtain ⟨hs, _⟩ := hw.solvent.updateReward hupdate
  split
  · refine callToken_ne (Erc20.transferInternal_funded ?_)
    show s.rewards sender ≤ (w.tokens s.rewardsToken).balanceOf s.self
    rw [hsame.rewardsToken, hsame.self]
    exact hs.reward_le sender
  · exact pure_ne_error

theorem exit_funded (hw : w.Solvent unnotified) (hsender : sender ≠ w.staking.self) :
    exit w sender ≠ .error "ERC20: transfer amount exceeds balance" := by
  simp only [exit, ne_eq, bind_eq_error, withdraw_funded hw, false_or, not_exists, not_and]
  intro v hwithdraw
  exact getReward_funded (withdraw_solvent hw hsender hwithdraw)

/-! ### Runs -/

inductive Action where
  | stake (sender : Address) (amount : Nat)
  | withdraw (sender : Address) (amount : Nat)
  | getReward (sender : Address)
  | exit (sender : Address)
  | notifyRewardAmount (sender : Address) (reward : Nat)
  | wait (seconds : Nat)
  /-- Holders of a token move it, to the contract too. -/
  | transferToken (token sender recipient : Address) (amount : Nat)
  | approveToken (token sender spender : Address) (amount : Nat)

def Action.caller : Action → Option Address
  | .stake sender _ | .withdraw sender _ | .getReward sender | .exit sender => some sender
  | .notifyRewardAmount sender _ => some sender
  | .transferToken _ sender _ _ | .approveToken _ sender _ _ => some sender
  | .wait _ => none

/-- The world, and the reward tokens that were sent to the contract and not yet notified. -/
structure Run where
  world : StakingWorld
  unnotified : Nat

def callWorld (w : StakingWorld) (token : Address) (call : Erc20 → Result Erc20) :
    Result StakingWorld :=
  callToken w w.staking token call

/-- The contract makes none of these calls itself, and staking tokens come to it by `stake` alone. -/
def step (r : Run) (a : Action) : Result Run := do
  require (a.caller ≠ some r.world.staking.self) "Not the contract"
  match a with
  | .stake sender amount => do
    let w ← stake r.world sender amount
    pure { r with world := w }
  | .withdraw sender amount => do
    let w ← withdraw r.world sender amount
    pure { r with world := w }
  | .getReward sender => do
    let w ← getReward r.world sender
    pure { r with world := w }
  | .exit sender => do
    let w ← exit r.world sender
    pure { r with world := w }
  | .notifyRewardAmount sender reward => do
    let w ← notifyRewardAmount r.world sender reward
    pure ⟨w, r.unnotified - reward⟩
  | .wait seconds => pure { r with world.timestamp := r.world.timestamp + seconds }
  | .transferToken token sender recipient amount => do
    require (¬(token = r.world.staking.stakingToken ∧ recipient = r.world.staking.self))
      "Stakes come by stake"
    let w ← callWorld r.world token (·.transfer sender recipient amount)
    let received := if token = r.world.staking.rewardsToken ∧ recipient = r.world.staking.self
      then amount else 0
    pure ⟨w, r.unnotified + received⟩
  | .approveToken token sender spender amount => do
    let w ← callWorld r.world token (·.approve sender spender amount)
    pure { r with world := w }

/-- A reward is notified after at least as many tokens were sent for it. -/
def Prefunded (r : Run) : Action → Prop
  | .notifyRewardAmount _ reward => reward ≤ r.unnotified
  | _ => True

/-- A ledger changed by others: no stakes moved, and reward tokens arrived if any. -/
theorem callWorld_solvent (hw : w.Solvent unnotified) {token : Address}
    {call : Erc20 → Result Erc20} {received : Nat} (h : callWorld w token call = .ok v)
    (hstakes : ∀ t, call (w.tokens token) = .ok t → token = w.staking.stakingToken →
      t.balanceOf w.staking.self = (w.tokens token).balanceOf w.staking.self)
    (hrewards : ∀ t, call (w.tokens token) = .ok t → token = w.staking.rewardsToken →
      (w.tokens token).balanceOf w.staking.self + received ≤ t.balanceOf w.staking.self)
    (hnone : token ≠ w.staking.rewardsToken → received = 0) :
    v.Solvent (unnotified + received) := by
  obtain ⟨t, ht, rfl⟩ := callToken_eq_ok.mp h
  by_cases hr : token = w.staking.rewardsToken
  · subst hr
    exact Solvent.of_rewards ⟨rfl, rfl, rfl⟩ hw (hw.solvent.received (hrewards t ht rfl))
  · obtain rfl := hnone hr
    by_cases hs : token = w.staking.stakingToken
    · subst hs
      refine Solvent.of_stakes ⟨rfl, rfl, rfl⟩ hw ?_
      rw [hstakes t ht rfl]
      exact hw.solvent
    · refine ⟨hw.apart, ?_⟩
      have hother (other : Address) (hne : other ≠ token) :
          Function.update w.tokens token t other = w.tokens other := Function.update_of_ne hne _ _
      show w.staking.Solvent w.timestamp
        ((Function.update w.tokens token t w.staking.rewardsToken).balanceOf w.staking.self)
        ((Function.update w.tokens token t w.staking.stakingToken).balanceOf w.staking.self) unnotified
      rw [hother _ (Ne.symm hr), hother _ (Ne.symm hs)]
      exact hw.solvent

variable {r q : Run}

theorem step_solvent {a : Action} (hr : r.world.Solvent r.unnotified) (hfunded : Prefunded r a)
    (h : step r a = .ok q) : q.world.Solvent q.unnotified := by
  simp only [step, bind_eq_ok, require_eq_ok, exists_const] at h
  obtain ⟨hcaller, h⟩ := h
  cases a with
  | stake sender amount =>
    simp only [bind_eq_ok, pure_eq_ok] at h
    obtain ⟨w, hw, rfl⟩ := h
    exact stake_solvent hr (fun heq => hcaller (congrArg some heq)) hw
  | withdraw sender amount =>
    simp only [bind_eq_ok, pure_eq_ok] at h
    obtain ⟨w, hw, rfl⟩ := h
    exact withdraw_solvent hr (fun heq => hcaller (congrArg some heq)) hw
  | getReward sender =>
    simp only [bind_eq_ok, pure_eq_ok] at h
    obtain ⟨w, hw, rfl⟩ := h
    exact getReward_solvent hr (fun heq => hcaller (congrArg some heq)) hw
  | exit sender =>
    simp only [bind_eq_ok, pure_eq_ok] at h
    obtain ⟨w, hw, rfl⟩ := h
    exact exit_solvent hr (fun heq => hcaller (congrArg some heq)) hw
  | notifyRewardAmount sender reward =>
    simp only [bind_eq_ok, pure_eq_ok] at h
    obtain ⟨w, hw, rfl⟩ := h
    exact notifyRewardAmount_solvent hr hfunded hw
  | wait seconds =>
    simp only [pure_eq_ok] at h
    subst h
    exact ⟨hr.apart, hr.solvent.later (Nat.le_add_right _ _)⟩
  | transferToken token sender recipient amount =>
    simp only [bind_eq_ok, require_eq_ok, pure_eq_ok, exists_const] at h
    obtain ⟨hstakes, w, hw, rfl⟩ := h
    have hsender : r.world.staking.self ≠ sender := fun heq => hcaller (congrArg some heq.symm)
    refine callWorld_solvent hr hw (fun t ht htoken => ?_) (fun t ht htoken => ?_) fun hne => ?_
    · have hrecipient : r.world.staking.self ≠ recipient := fun heq => hstakes ⟨htoken, heq.symm⟩
      exact (Erc20.transferInternal_moved ht).1.of_ne hsender hrecipient
    · have hmoved := (Erc20.transferInternal_moved ht).1 r.world.staking.self
      rw [if_neg hsender, Nat.add_zero] at hmoved
      by_cases hrecipient : recipient = r.world.staking.self
      · rw [if_pos ⟨htoken, hrecipient⟩, hmoved, if_pos hrecipient.symm]
      · rw [if_neg fun h => hrecipient h.2, hmoved, if_neg (Ne.symm hrecipient)]
    · exact if_neg fun h => hne h.1
  | approveToken token sender spender amount =>
    simp only [bind_eq_ok, pure_eq_ok] at h
    obtain ⟨w, hw, rfl⟩ := h
    have hsame (t : Erc20) (ht : (r.world.tokens token).approve sender spender amount = .ok t) :
        t.balanceOf r.world.staking.self =
          (r.world.tokens token).balanceOf r.world.staking.self := by
      rw [Erc20.balanceOf, Erc20.balanceOf, (Erc20.approveInternal_balances ht).1]
    exact callWorld_solvent hr hw (fun t ht _ => hsame t ht) (fun t ht _ => (hsame t ht).ge)
      fun _ => rfl

/-- A new contract to which nobody has sent staking tokens. -/
theorem construct_solvent {self rewardsDistribution rewardsToken stakingToken : Address}
    {rewardsDuration timestamp : Nat} {tokens : Address → Erc20}
    (hapart : rewardsToken ≠ stakingToken) (hstakes : (tokens stakingToken).balanceOf self = 0) :
    Solvent ⟨construct self rewardsDistribution rewardsToken stakingToken rewardsDuration, tokens,
      timestamp⟩ 0 where
  apart := hapart
  solvent :=
    { settled_le := fun _ => le_rfl
      update_le := Nat.zero_le _
      shares := Finset.sum_const_zero
      held := hstakes.symm
      no_zero := rfl
      funded := by
        have hliability : (construct self rewardsDistribution rewardsToken stakingToken
            rewardsDuration).accumulator.liability rewardScale 0 = 0 := by
          refine Finset.sum_eq_zero fun account _ => ?_
          show 0 * (0 - 0) + 0 * rewardScale = 0
          rw [Nat.zero_mul, Nat.zero_mul]
        show _ + (0 * (0 - 0) + 0) * rewardScale ≤ _
        rw [Nat.zero_mul, Nat.add_zero]
        exact hliability.le.trans (Nat.zero_le _) }

/-- **The solvency theorem.** In every run in which rewards are notified after they were sent, what
the stakers have earned and what the rate still pays are covered by the reward tokens held, stakes
are held one for one, and no staker's call lacks tokens. -/
theorem staking_solvent {self rewardsDistribution rewardsToken stakingToken : Address}
    {rewardsDuration timestamp : Nat} {tokens : Address → Erc20} {actions : List Action}
    (hapart : rewardsToken ≠ stakingToken)
    (hstakes : (tokens stakingToken).balanceOf self = 0)
    (hfunded : Along step Prefunded
      ⟨⟨construct self rewardsDistribution rewardsToken stakingToken rewardsDuration, tokens,
        timestamp⟩, 0⟩ actions)
    (hrun : runs step
      ⟨⟨construct self rewardsDistribution rewardsToken stakingToken rewardsDuration, tokens,
        timestamp⟩, 0⟩ actions = .ok r) :
    (∀ account amount, r.world.staking.earned r.world.timestamp account = .ok amount →
      amount = r.world.staking.exactEarned r.world.timestamp account) ∧
    (∑ account, r.world.staking.exactEarned r.world.timestamp account) +
        r.world.staking.rewardRate * (r.world.staking.periodFinish - r.world.timestamp) ≤
      r.world.rewardsHeld ∧
    (∑ account, r.world.staking.balances account) = r.world.staking.totalSupply ∧
    r.world.staking.totalSupply = r.world.stakesHeld ∧
    ∀ sender amount, sender ≠ r.world.staking.self →
      getReward r.world sender ≠ .error "ERC20: transfer amount exceeds balance" ∧
      withdraw r.world sender amount ≠ .error "ERC20: transfer amount exceeds balance" ∧
      exit r.world sender ≠ .error "ERC20: transfer amount exceeds balance" := by
  have hr : r.world.Solvent r.unnotified :=
    runs_induction_along (fun r _ => r.world.Solvent r.unnotified)
      (fun _ _ _ _ hr hfunded h => step_solvent hr hfunded h) (construct_solvent hapart hstakes)
      hfunded hrun
  exact ⟨fun _ _ h => earned_exact h, hr.solvent.earned_le, hr.solvent.shares, hr.solvent.held,
    fun sender amount hsender =>
      ⟨getReward_funded hr, withdraw_funded hr, exit_funded hr hsender⟩⟩

/-! Seven rewards in as many seconds, for one staker at 5 that leaves after the period. -/

def exampleTokens : Address → Erc20 := fun token =>
  if token = 1 then ⟨fun a => if a = 9 then 7 * 10 ^ 18 else 0, fun _ _ => 0, 7 * 10 ^ 18⟩
  else ⟨fun a => if a = 5 then 10 ^ 18 else 0, fun a b => if a = 5 ∧ b = 50 then 10 ^ 18 else 0,
    10 ^ 18⟩

def exampleRun : Run := ⟨⟨construct 50 9 1 2 7, exampleTokens, 1000⟩, 0⟩

def exampleActions : List Action :=
  [.transferToken 1 9 50 (7 * 10 ^ 18), .notifyRewardAmount 9 (7 * 10 ^ 18), .stake 5 (10 ^ 18),
    .wait 3, .getReward 5, .wait 10, .exit 5]

theorem staking_solvent_example :
    ∃ r, runs step exampleRun exampleActions = .ok r ∧
      (∑ account, r.world.staking.exactEarned r.world.timestamp account) +
          r.world.staking.rewardRate * (r.world.staking.periodFinish - r.world.timestamp) ≤
        r.world.rewardsHeld := by
  have h : (·.world.rewardsHeld) <$> runs step exampleRun exampleActions = .ok 0 := by
    decide +kernel
  have hsent : (·.unnotified) <$> step exampleRun (.transferToken 1 9 50 (7 * 10 ^ 18)) =
      .ok (7 * 10 ^ 18) := by decide +kernel
  simp only [map_eq_ok] at h hsent
  obtain ⟨r, hrun, _⟩ := h
  obtain ⟨q, hq, hunnotified⟩ := hsent
  have hfunded : Along step Prefunded exampleRun exampleActions := by
    refine ⟨trivial, fun q' hq' => ⟨?_, fun _ _ => ⟨trivial, fun _ _ => ⟨trivial, fun _ _ =>
      ⟨trivial, fun _ _ => ⟨trivial, fun _ _ => ⟨trivial, fun _ _ => trivial⟩⟩⟩⟩⟩⟩⟩
    obtain rfl : q = q' := Except.ok.inj (hq.symm.trans hq')
    exact hunnotified.ge
  exact ⟨r, hrun, (staking_solvent (by decide) (by decide) hfunded hrun).2.1⟩

end StakingWorld

end IndexProtocol
