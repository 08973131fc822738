import IndexProtocol.Erc20
import Mathlib.Algebra.Order.Field.Rat
import Mathlib.Tactic.FieldSimp
import Mathlib.Tactic.Linarith

/-! The vesting contracts Vesting and FTCVesting.

Both pay a fixed amount of one token to a recipient, in proportion to the time
between a beginning and an end, from a cliff on; after the end a claim pays what is
left. They differ in who may claim. Each claim before the end rounds down its own
part of the amount, so that after `k` of them less than `k` is missing from what has
vested. -/
namespace IndexProtocol
open Evm

structure Vesting where
  self : Address
  recipient : Address
  vestingAmount : Nat
  vestingBegin : Nat
  vestingCliff : Nat
  vestingEnd : Nat
  lastUpdate : Nat

structure FTCVesting extends Vesting where
  treasury : Address

namespace Vesting

def construct (timestamp : Nat) (self recipient : Address)
    (vestingAmount vestingBegin vestingCliff vestingEnd : Nat) : Result Vesting := do
  require (timestamp ≤ vestingBegin) "TreasuryVester.constructor: vesting begin too early"
  require (vestingBegin ≤ vestingCliff) "TreasuryVester.constructor: cliff is too early"
  require (vestingCliff < vestingEnd) "TreasuryVester.constructor: end is too early"
  pure ⟨self, recipient, vestingAmount, vestingBegin, vestingCliff, vestingEnd, vestingBegin⟩

section Claim
variable (v : Vesting) (index : Erc20) (timestamp : Nat)

/-- What is due now, and the contract with the time of the claim. -/
def due : Result (Nat × Vesting) :=
  if v.vestingEnd ≤ timestamp then pure (index.balanceOf v.self, v)
  else do
    let elapsed ← SafeMath.sub timestamp v.lastUpdate
    let product ← SafeMath.mul v.vestingAmount elapsed
    let duration ← SafeMath.sub v.vestingEnd v.vestingBegin
    let amount ← SafeMath.div product duration
    pure (amount, { v with lastUpdate := timestamp })

/-- What either contract's `claim` does after its checks. Also returns the amount. -/
def payDue : Result (Vesting × Erc20 × Nat) := do
  let (amount, v) ← v.due index timestamp
  let index ← index.transfer v.self v.recipient amount
  pure (v, index, amount)

/-- By anyone. -/
def claim : Result (Vesting × Erc20 × Nat) := do
  require (v.vestingCliff ≤ timestamp) "TreasuryVester.claim: not time yet"
  v.payDue index timestamp

end Claim

end Vesting

namespace FTCVesting

def construct (self recipient treasury : Address)
    (vestingAmount vestingBegin vestingCliff vestingEnd : Nat) : Result FTCVesting := do
  require (vestingBegin ≤ vestingCliff) "FTCVester.constructor: cliff is too early"
  require (vestingCliff < vestingEnd) "FTCVester.constructor: end is too early"
  pure ⟨⟨self, recipient, vestingAmount, vestingBegin, vestingCliff, vestingEnd, vestingBegin⟩,
    treasury⟩

/-- By the recipient. -/
def claim (v : FTCVesting) (index : Erc20) (timestamp : Nat) (sender : Address) :
    Result (FTCVesting × Erc20 × Nat) := do
  require (sender = v.recipient) "FTCVester.onlyRecipient: unauthorized"
  require (v.vestingCliff ≤ timestamp) "FTCVester.overCliff: cliff not reached"
  let (schedule, index, amount) ← v.payDue index timestamp
  pure ({ v with toVesting := schedule }, index, amount)

end FTCVesting

/-! ### What has vested -/

namespace Vesting
variable {v t : Vesting} {index index' : Erc20} {timestamp amount held paid claims : Nat}

/-- What has vested at a time, not rounded, and nothing before the beginning. -/
def linear (v : Vesting) (timestamp : Nat) : ℚ :=
  v.vestingAmount * ((timestamp - v.vestingBegin : Nat) : ℚ) /
    ((v.vestingEnd - v.vestingBegin : Nat) : ℚ)

/-- What was paid in a number of claims until the last update is what had vested then, less one at
most for each of them. -/
structure OnSchedule (v : Vesting) (paid claims : Nat) : Prop where
  begin_le : v.vestingBegin ≤ v.lastUpdate
  low : v.vestingAmount * (v.lastUpdate - v.vestingBegin) + claims ≤
    (paid + claims) * (v.vestingEnd - v.vestingBegin)
  high : paid * (v.vestingEnd - v.vestingBegin) ≤
    v.vestingAmount * (v.lastUpdate - v.vestingBegin)

/-- One more claim. -/
theorem OnSchedule.claim (h : OnSchedule v paid claims) (hlast : v.lastUpdate ≤ timestamp)
    (hduration : 0 < v.vestingEnd - v.vestingBegin)
    (hamount : v.vestingAmount * (timestamp - v.lastUpdate) / (v.vestingEnd - v.vestingBegin) =
      amount) :
    OnSchedule { v with lastUpdate := timestamp } (paid + amount) (claims + 1) := by
  have hfloor := Nat.div_mul_le_self (v.vestingAmount * (timestamp - v.lastUpdate))
    (v.vestingEnd - v.vestingBegin)
  have hceil := Nat.lt_mul_div_succ (v.vestingAmount * (timestamp - v.lastUpdate)) hduration
  rw [hamount, Nat.mul_comm] at hceil
  rw [hamount] at hfloor
  have hsplit : v.vestingAmount * (timestamp - v.vestingBegin) =
      v.vestingAmount * (v.lastUpdate - v.vestingBegin) +
        v.vestingAmount * (timestamp - v.lastUpdate) := by
    have := h.begin_le
    rw [← Nat.mul_add]
    congr 1
    omega
  refine ⟨h.begin_le.trans hlast, ?_, ?_⟩
  · have hlow := h.low
    show v.vestingAmount * (timestamp - v.vestingBegin) + (claims + 1) ≤
      (paid + amount + (claims + 1)) * (v.vestingEnd - v.vestingBegin)
    rw [hsplit]
    linarith
  · have hhigh := h.high
    show (paid + amount) * (v.vestingEnd - v.vestingBegin) ≤
      v.vestingAmount * (timestamp - v.vestingBegin)
    rw [hsplit, Nat.add_mul]
    exact Nat.add_le_add hhigh hfloor

/-- Before the end no more was paid than there is to pay. -/
theorem OnSchedule.paid_le (h : OnSchedule v paid claims) (hlast : v.lastUpdate ≤ v.vestingEnd)
    (hduration : 0 < v.vestingEnd - v.vestingBegin) : paid ≤ v.vestingAmount := by
  refine Nat.le_of_mul_le_mul_right (h.high.trans ?_) hduration
  exact Nat.mul_le_mul_left _ (Nat.sub_le_sub_right hlast _)

theorem OnSchedule.le_linear (h : OnSchedule v paid claims) (hlast : v.lastUpdate ≤ timestamp)
    (hduration : 0 < v.vestingEnd - v.vestingBegin) : (paid : ℚ) ≤ v.linear timestamp := by
  rw [linear, le_div_iff₀ (Nat.cast_pos.mpr hduration)]
  exact_mod_cast h.high.trans (Nat.mul_le_mul_left _ (Nat.sub_le_sub_right hlast _))

theorem OnSchedule.linear_lt (h : OnSchedule v paid claims) (hclaims : 0 < claims)
    (hduration : 0 < v.vestingEnd - v.vestingBegin) :
    v.linear v.lastUpdate - claims < paid := by
  rw [sub_lt_iff_lt_add, linear, div_lt_iff₀ (Nat.cast_pos.mpr hduration)]
  have hlow := h.low
  exact_mod_cast (show v.vestingAmount * (v.lastUpdate - v.vestingBegin) <
    (paid + claims) * (v.vestingEnd - v.vestingBegin) by omega)

/-- After the end what is left is due, before it the part since the last claim. -/
theorem due_eq (h : v.due index timestamp = .ok (amount, t)) :
    (v.vestingEnd ≤ timestamp ∧ t = v ∧ amount = index.balanceOf v.self) ∨
      (timestamp < v.vestingEnd ∧ v.lastUpdate ≤ timestamp ∧
        t = { v with lastUpdate := timestamp } ∧
        v.vestingAmount * (timestamp - v.lastUpdate) / (v.vestingEnd - v.vestingBegin) =
          amount) := by
  unfold due at h
  by_cases hend : v.vestingEnd ≤ timestamp
  · rw [if_pos hend, pure_eq_ok, Prod.mk.injEq] at h
    exact .inl ⟨hend, h.2.symm, h.1.symm⟩
  · rw [if_neg hend] at h
    simp only [bind_eq_ok, SafeMath.sub_eq_ok, SafeMath.mul_eq_ok, SafeMath.div_eq_ok, pure_eq_ok,
      Prod.mk.injEq] at h
    obtain ⟨_, ⟨hlast, rfl⟩, _, ⟨_, rfl⟩, _, ⟨_, rfl⟩, _, ⟨_, hamount⟩, rfl, rfl⟩ := h
    exact .inr ⟨Nat.lt_of_not_le hend, hlast, rfl, hamount⟩

theorem due_same (h : v.due index timestamp = .ok (amount, t)) :
    t.self = v.self ∧ t.recipient = v.recipient := by
  rcases due_eq h with ⟨_, rfl, _⟩ | ⟨_, _, rfl, _⟩
  · exact ⟨rfl, rfl⟩
  · exact ⟨rfl, rfl⟩

theorem payDue_eq (h : v.payDue index timestamp = .ok (t, index', amount)) :
    v.due index timestamp = .ok (amount, t) ∧
      index.transfer v.self v.recipient amount = .ok index' := by
  simp only [payDue, bind_eq_ok, pure_eq_ok, Prod.mk.injEq] at h
  obtain ⟨⟨_, _⟩, hdue, _, htransfer, rfl, rfl, rfl⟩ := h
  obtain ⟨hself, hrecipient⟩ := due_same hdue
  rw [hself, hrecipient] at htransfer
  exact ⟨hdue, htransfer⟩

theorem due_ne :
    v.due index timestamp ≠ .error "ERC20: transfer amount exceeds balance" := by
  unfold due
  split
  · exact pure_ne_error
  · simp only [ne_eq, bind_eq_error, SafeMath.sub_eq_error, SafeMath.mul_eq_error,
      SafeMath.div_eq_error, pure_ne_error, String.reduceEq, and_false, or_false, exists_false,
      not_false_eq_true]

/-- Only the transfer can lack tokens. -/
theorem payDue_ne
    (h : ∀ amount t, v.due index timestamp = .ok (amount, t) → amount ≤ index.balanceOf v.self) :
    v.payDue index timestamp ≠ .error "ERC20: transfer amount exceeds balance" := by
  simp only [payDue, ne_eq, bind_eq_error, due_ne, pure_ne_error, and_false, exists_false, or_false,
    false_or, not_exists, not_and]
  rintro ⟨amount, t⟩ hdue
  refine Erc20.transferInternal_funded ?_
  rw [(due_same hdue).1]
  exact h amount t hdue

end Vesting

/-! ### Runs of claims -/

inductive VestingContract where
  | vesting (v : Vesting)
  | ftcVesting (v : FTCVesting)

namespace VestingContract

/-- What the two contracts have in common. -/
def schedule : VestingContract → Vesting
  | .vesting v => v
  | .ftcVesting v => v.toVesting

def claim (index : Erc20) (timestamp : Nat) (sender : Address) :
    VestingContract → Result (VestingContract × Erc20 × Nat)
  | .vesting v => do
    let (v, index, amount) ← v.claim index timestamp
    pure (.vesting v, index, amount)
  | .ftcVesting v => do
    let (v, index, amount) ← v.claim index timestamp sender
    pure (.ftcVesting v, index, amount)

/-- Accepted by its constructor, at a time. -/
def Deployed (timestamp : Nat) : VestingContract → Prop
  | .vesting v => ∃ self recipient vestingAmount vestingBegin vestingCliff vestingEnd,
      Vesting.construct timestamp self recipient vestingAmount vestingBegin vestingCliff vestingEnd =
        .ok v
  | .ftcVesting v => ∃ self recipient treasury vestingAmount vestingBegin vestingCliff vestingEnd,
      FTCVesting.construct self recipient treasury vestingAmount vestingBegin vestingCliff
        vestingEnd = .ok v

/-- A contract and the ledger of its token, at a time, with what was paid so far and in how many
claims. -/
structure Run where
  contract : VestingContract
  index : Erc20
  timestamp : Nat
  paid : Nat
  claims : Nat

inductive Action where
  | claim (sender : Address)
  | wait (seconds : Nat)

def step (r : Run) : Action → Result Run
  | .claim sender => do
    let (contract, index, amount) ← r.contract.claim r.index r.timestamp sender
    pure ⟨contract, index, r.timestamp, r.paid + amount, r.claims + 1⟩
  | .wait seconds => pure { r with timestamp := r.timestamp + seconds }

variable {c c' : VestingContract} {index index' : Erc20} {timestamp amount : Nat}
  {sender : Address} {r q : Run}

theorem claim_eq (h : c.claim index timestamp sender = .ok (c', index', amount)) :
    c.schedule.vestingCliff ≤ timestamp ∧
      c.schedule.payDue index timestamp = .ok (c'.schedule, index', amount) := by
  cases c with
  | vesting v =>
    simp only [claim, Vesting.claim, bind_eq_ok, require_eq_ok, pure_eq_ok, Prod.mk.injEq,
      exists_const] at h
    obtain ⟨⟨v', _, _⟩, ⟨hcliff, hpay⟩, rfl, rfl, rfl⟩ := h
    exact ⟨hcliff, hpay⟩
  | ftcVesting v =>
    simp only [claim, FTCVesting.claim, bind_eq_ok, require_eq_ok, pure_eq_ok, Prod.mk.injEq,
      exists_const] at h
    obtain ⟨⟨v', _, _⟩, ⟨_, hcliff, ⟨_, _, _⟩, hpay, rfl, rfl, rfl⟩, rfl, rfl, rfl⟩ := h
    exact ⟨hcliff, hpay⟩

theorem Deployed.times (h : Deployed timestamp c) :
    c.schedule.vestingBegin ≤ c.schedule.vestingCliff ∧
      c.schedule.vestingCliff < c.schedule.vestingEnd ∧
      c.schedule.lastUpdate = c.schedule.vestingBegin := by
  cases c with
  | vesting v =>
    obtain ⟨_, _, _, _, _, _, hv⟩ := h
    simp only [Vesting.construct, bind_eq_ok, require_eq_ok, pure_eq_ok, exists_const] at hv
    obtain ⟨_, hcliff, hend, rfl⟩ := hv
    exact ⟨hcliff, hend, rfl⟩
  | ftcVesting v =>
    obtain ⟨_, _, _, _, _, _, _, hv⟩ := h
    simp only [FTCVesting.construct, bind_eq_ok, require_eq_ok, pure_eq_ok, exists_const] at hv
    obtain ⟨hcliff, hend, rfl⟩ := hv
    exact ⟨hcliff, hend, rfl⟩

/-- All but the time of the last claim. -/
structure SameTerms (v t : Vesting) : Prop where
  self : t.self = v.self
  recipient : t.recipient = v.recipient
  vestingAmount : t.vestingAmount = v.vestingAmount
  vestingBegin : t.vestingBegin = v.vestingBegin
  vestingCliff : t.vestingCliff = v.vestingCliff
  vestingEnd : t.vestingEnd = v.vestingEnd

theorem SameTerms.linear {v t : Vesting} (h : SameTerms v t) (timestamp : Nat) :
    t.linear timestamp = v.linear timestamp := by
  rw [Vesting.linear, Vesting.linear, h.vestingAmount, h.vestingBegin, h.vestingEnd]

/-- A run with the terms of `v`. What was not paid is held, and before the end payments are on
schedule. -/
structure Vests (v : Vesting) (r : Run) : Prop where
  same : SameTerms v r.contract.schedule
  total : r.paid + r.index.balanceOf v.self = v.vestingAmount
  cliff : r.timestamp < v.vestingCliff → r.paid = 0
  last : r.contract.schedule.lastUpdate ≤ max r.timestamp v.vestingBegin
  onSchedule : r.timestamp < v.vestingEnd → r.contract.schedule.OnSchedule r.paid r.claims

/-- What the terms of a deployed contract and its funding give. -/
structure Terms (v : Vesting) : Prop where
  begin_le : v.vestingBegin ≤ v.vestingCliff
  cliff_lt : v.vestingCliff < v.vestingEnd
  recipient_ne : v.recipient ≠ v.self

namespace Vests
variable {v : Vesting}

theorem duration_pos (hv : Terms v) (h : SameTerms v c.schedule) :
    0 < c.schedule.vestingEnd - c.schedule.vestingBegin := by
  rw [h.vestingEnd, h.vestingBegin]
  have := hv.begin_le
  have := hv.cliff_lt
  omega

/-- One claim: it is paid out of what is held, and either ends the schedule or is on it. -/
theorem claim (hv : Terms v) (hr : Vests v r) (h : step r (.claim sender) = .ok q) :
    Vests v q ∧ (v.vestingEnd ≤ r.timestamp → q.paid = v.vestingAmount) ∧
      (r.timestamp < v.vestingEnd → v.linear r.timestamp - q.claims < q.paid) := by
  simp only [step, bind_eq_ok, pure_eq_ok] at h
  obtain ⟨⟨contract, index, amount⟩, hclaim, rfl⟩ := h
  obtain ⟨hcliff, hpay⟩ := claim_eq hclaim
  obtain ⟨hdue, htransfer⟩ := Vesting.payDue_eq hpay
  obtain ⟨hmoved, _⟩ := Erc20.transferInternal_moved htransfer
  rw [hr.same.self, hr.same.recipient] at hmoved
  have hpaid := hmoved.at_sender (Ne.symm hv.recipient_ne)
  have htotal : r.paid + amount + index.balanceOf v.self = v.vestingAmount := by
    have := hr.total
    omega
  rw [hr.same.vestingCliff] at hcliff
  have hbegin := hv.begin_le
  rcases Vesting.due_eq hdue with ⟨hend, hsame, hall⟩ | ⟨hend, hlast, hsame, hamount⟩
  · rw [hr.same.vestingEnd] at hend
    rw [hr.same.self] at hall
    refine ⟨⟨hsame ▸ hr.same, htotal, fun h => absurd h (not_lt.mpr hcliff), hsame ▸ hr.last,
      fun h => absurd h (not_lt.mpr hend)⟩, fun _ => ?_, fun h => absurd h (not_lt.mpr hend)⟩
    show r.paid + amount = v.vestingAmount
    omega
  · rw [hr.same.vestingEnd] at hend
    have hnext := (hr.onSchedule hend).claim hlast (duration_pos hv hr.same) hamount
    rw [← hsame] at hnext
    have hterms : SameTerms v contract.schedule := by
      rw [hsame]
      exact ⟨hr.same.self, hr.same.recipient, hr.same.vestingAmount, hr.same.vestingBegin,
        hr.same.vestingCliff, hr.same.vestingEnd⟩
    have hnow : contract.schedule.lastUpdate = r.timestamp := by rw [hsame]
    refine ⟨⟨hterms, htotal, fun h => absurd h (not_lt.mpr hcliff), ?_, fun _ => hnext⟩,
      fun h => absurd hend (not_lt.mpr h), fun _ => ?_⟩
    · rw [hnow]
      exact le_max_left _ _
    · have hlinear := hnext.linear_lt (Nat.succ_pos _) (duration_pos hv hterms)
      rw [hnow, hterms.linear] at hlinear
      exact hlinear

theorem wait {seconds : Nat} (hr : Vests v r) (h : step r (.wait seconds) = .ok q) : Vests v q := by
  simp only [step, pure_eq_ok] at h
  subst h
  refine ⟨hr.same, hr.total, fun h => hr.cliff ?_, hr.last.trans (max_le_max_right _ ?_),
    fun h => hr.onSchedule ?_⟩
  · exact (Nat.le_add_right _ _).trans_lt h
  · exact Nat.le_add_right _ _
  · exact (Nat.le_add_right _ _).trans_lt h

/-- What is due is held. -/
theorem due_le {t : Vesting} (hv : Terms v) (hr : Vests v r)
    (h : r.contract.schedule.due r.index r.timestamp = .ok (amount, t)) :
    amount ≤ r.index.balanceOf r.contract.schedule.self := by
  rcases Vesting.due_eq h with ⟨_, _, rfl⟩ | ⟨hend, hlast, _, hamount⟩
  · exact le_rfl
  · have hduration := duration_pos hv hr.same
    have hnext := (hr.onSchedule (hr.same.vestingEnd ▸ hend)).claim hlast hduration hamount
    have hpaid := hnext.paid_le hend.le hduration
    have htotal := hr.total
    have hterms := hr.same.vestingAmount
    rw [hr.same.self]
    show amount ≤ r.index.balanceOf v.self
    change r.paid + amount ≤ r.contract.schedule.vestingAmount at hpaid
    omega

theorem funded (hv : Terms v) (hr : Vests v r) :
    r.contract.claim r.index r.timestamp sender ≠
      .error "ERC20: transfer amount exceeds balance" := by
  have hpay : r.contract.schedule.payDue r.index r.timestamp ≠
      .error "ERC20: transfer amount exceeds balance" :=
    Vesting.payDue_ne fun amount t h => due_le hv hr h
  cases hc : r.contract with
  | vesting w =>
    rw [hc] at hpay
    simp only [VestingContract.claim, Vesting.claim, ne_eq, bind_eq_error, require_eq_error,
      String.reduceEq, and_false, false_or, pure_ne_error, exists_false, or_false, not_exists,
      not_and]
    exact fun _ _ => hpay
  | ftcVesting w =>
    rw [hc] at hpay
    simp only [VestingContract.claim, FTCVesting.claim, ne_eq, bind_eq_error, require_eq_error,
      String.reduceEq, and_false, false_or, pure_ne_error, exists_false, or_false, not_exists,
      not_and]
    exact fun _ _ _ _ => hpay

end Vests

/-- **The vesting theorem.** In every run of claims on a contract that its constructor accepted, that
was funded with its amount and does not pay itself: nothing is paid before the cliff, before the end
never more than has vested and after `k` claims more than that less `k`, no claim lacks tokens, and
a claim after the end completes the amount. -/
theorem vesting_pays_linearly {actions : List Action} (hdeployed : Deployed timestamp c)
    (hrecipient : c.schedule.recipient ≠ c.schedule.self)
    (hfunded : index.balanceOf c.schedule.self = c.schedule.vestingAmount)
    (hrun : runs step ⟨c, index, timestamp, 0, 0⟩ actions = .ok r) :
    (r.timestamp < c.schedule.vestingCliff → r.paid = 0) ∧
    (r.timestamp < c.schedule.vestingEnd → (r.paid : ℚ) ≤ c.schedule.linear r.timestamp) ∧
    (∀ sender q, step r (.claim sender) = .ok q →
      (r.timestamp < c.schedule.vestingEnd →
        c.schedule.linear r.timestamp - q.claims < q.paid) ∧
      (c.schedule.vestingEnd ≤ r.timestamp → q.paid = c.schedule.vestingAmount)) ∧
    ∀ sender, r.contract.claim r.index r.timestamp sender ≠
      .error "ERC20: transfer amount exceeds balance" := by
  obtain ⟨hbegin, hcliff, hlast⟩ := hdeployed.times
  have hv : Terms c.schedule := ⟨hbegin, hcliff, hrecipient⟩
  have hstart : Vests c.schedule ⟨c, index, timestamp, 0, 0⟩ := by
    refine ⟨⟨rfl, rfl, rfl, rfl, rfl, rfl⟩, ?_, fun _ => rfl, hlast.le.trans (le_max_right _ _),
      fun _ => ⟨hlast.ge, ?_, ?_⟩⟩
    · rw [hfunded, Nat.zero_add]
    · rw [hlast, Nat.sub_self, Nat.mul_zero]
      exact Nat.zero_le _
    · rw [Nat.zero_mul]
      exact Nat.zero_le _
  have hr : Vests c.schedule r := by
    refine runs_invariant (Vests c.schedule) (fun r a q hr h => ?_) hstart hrun
    cases a with
    | claim sender => exact (hr.claim hv h).1
    | wait seconds => exact hr.wait h
  refine ⟨hr.cliff, fun hend => ?_, fun sender q h => ?_, fun sender => hr.funded hv⟩
  · by_cases hearly : r.timestamp < c.schedule.vestingCliff
    · rw [hr.cliff hearly, Vesting.linear, Nat.cast_zero]
      exact div_nonneg (mul_nonneg (Nat.cast_nonneg _) (Nat.cast_nonneg _)) (Nat.cast_nonneg _)
    · have hnow : r.contract.schedule.lastUpdate ≤ r.timestamp := by
        have := hr.last
        omega
      rw [← hr.same.linear]
      exact (hr.onSchedule hend).le_linear hnow (Vests.duration_pos hv hr.same)
  · obtain ⟨_, hafter, hbefore⟩ := hr.claim hv h
    exact ⟨hbefore, hafter⟩

/-! Ten tokens over 300 seconds, claimed half way and after the end. -/

def exampleContract (recipient : Address) : VestingContract :=
  .vesting ⟨50, recipient, 10, 100, 200, 400, 100⟩

def exampleRun (recipient : Address) : Run :=
  ⟨exampleContract recipient, ⟨fun a => if a = 50 then 10 else 0, fun _ _ => 0, 10⟩, 0, 0, 0⟩

theorem exampleContract_deployed (recipient : Address) :
    Deployed 0 (exampleContract recipient) :=
  ⟨50, recipient, 10, 100, 200, 400, rfl⟩

theorem vesting_pays_linearly_example :
    ∃ r q, runs step (exampleRun 5) [.wait 250, .claim 7, .wait 200] = .ok r ∧
      step r (.claim 7) = .ok q ∧ q.paid = 10 := by
  have h : (do
      let r ← runs step (exampleRun 5) [.wait 250, .claim 7, .wait 200]
      let _ ← step r (.claim 7)
      require (r.timestamp = 450) "") = .ok () := by decide +kernel
  simp only [bind_eq_ok, require_eq_ok] at h
  obtain ⟨r, hrun, q, hq, htime⟩ := h
  obtain ⟨_, _, hclaims, _⟩ :=
    vesting_pays_linearly (exampleContract_deployed 5) (by decide) rfl hrun
  exact ⟨r, q, hrun, hq, (hclaims 7 q hq).2 (htime ▸ by decide)⟩

/-- A contract that pays itself keeps what it pays, and after the end pays it again. -/
theorem self_vesting_pays_twice :
    ∃ r q, Deployed 0 (exampleContract 50) ∧
      runs step (exampleRun 50) [.wait 250, .claim 7, .wait 200] = .ok r ∧
      (exampleContract 50).schedule.vestingEnd ≤ r.timestamp ∧
      step r (.claim 7) = .ok q ∧ q.paid ≠ (exampleContract 50).schedule.vestingAmount := by
  have h : (do
      let r ← runs step (exampleRun 50) [.wait 250, .claim 7, .wait 200]
      let q ← step r (.claim 7)
      require (r.timestamp = 450 ∧ q.paid = 15) "") = .ok () := by decide +kernel
  simp only [bind_eq_ok, require_eq_ok] at h
  obtain ⟨r, hrun, q, hq, htime, hpaid⟩ := h
  exact ⟨r, q, exampleContract_deployed 50, hrun, htime ▸ by decide, hq, hpaid ▸ by decide⟩

end VestingContract

end IndexProtocol
