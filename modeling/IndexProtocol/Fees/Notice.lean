import IndexProtocol.Fees.FeeSplit

/-! Runs of the FeeSplitExtension: what has to happen before a fee changes.

A recorded run keeps the calls made so far. Its storage is a summary of them: a
registration stands where a call was not used yet, and the time lock of a call
holds the time of the notice that nobody acted on. -/
namespace IndexProtocol
open Evm

namespace FeeSplitExtension
variable {ω : Type}

inductive Action (ω : Type) where
  | call (sender : Address) (data : Calldata)
  | setTimeLockPeriod (sender : Address) (timeLockPeriod : Nat)
  | transferOwnership (sender newOwner : Address)
  | renounceOwnership (sender : Address)
  | updateOperatorFeeRecipient (sender newOperatorFeeRecipient : Address)
  | accrueFeesAndDistribute
  /-- Whatever else happens: time passes, and the other contracts change. -/
  | elsewhere (others : ω) (now : Nat)

/-- A call of a method: who could decide, when, under which period, and how far it got. -/
structure Call where
  sender : Address
  operator : Address
  methodologist : Address
  data : Calldata
  time : Nat
  period : Nat
  stage : Stage
  deriving DecidableEq, Repr

def Call.other (c : Call) : Address :=
  MutualUpgrade.getNonCaller c.operator c.methodologist c.sender

structure Recorded (ω : Type) where
  world : FeeSplitWorld ω
  now : Nat
  /-- The latest first. -/
  calls : List Call

def Recorded.period (r : Recorded ω) : Nat := r.world.extension.lock.timeLockPeriod

variable (e : Surroundings ω)

def record (r : Recorded ω) : Action ω → Result (Recorded ω)
  | .call sender data => do
    let (w, stage) ← FeeSplitExtension.call e r.world sender r.now data
    let c : Call := ⟨sender, e.operator r.world.others, e.methodologist r.world.others, data, r.now,
      r.period, stage⟩
    pure ⟨w, r.now, c :: r.calls⟩
  | .setTimeLockPeriod sender timeLockPeriod => do
    let w ← FeeSplitExtension.setTimeLockPeriod r.world sender timeLockPeriod
    pure { r with world := w }
  | .transferOwnership sender newOwner => do
    let w ← FeeSplitExtension.transferOwnership r.world sender newOwner
    pure { r with world := w }
  | .renounceOwnership sender => do
    let w ← FeeSplitExtension.renounceOwnership r.world sender
    pure { r with world := w }
  | .updateOperatorFeeRecipient sender newOperatorFeeRecipient => do
    let w ← FeeSplitExtension.updateOperatorFeeRecipient e r.world sender newOperatorFeeRecipient
    pure { r with world := w }
  | .accrueFeesAndDistribute => do
    let w ← FeeSplitExtension.accrueFeesAndDistribute e r.world
    pure { r with world := w }
  | .elsewhere others now => do
    require (r.now ≤ now) "time passes"
    pure { r with world := { r.world with others := others }, now := now }

/-! ### What has to happen before -/

/-- The party made this call, and it was not used to start a time lock or to carry out a method. -/
def stands (data : Calldata) (party : Address) : List Call → Bool
  | [] => false
  | c :: earlier =>
    if c.data = data then
      if c.stage = .registered then decide (c.sender = party) || stands data party earlier
      else if c.other = party then false else stands data party earlier
    else stands data party earlier

/-- The time of the notice of this call, if nobody acted on it. -/
def noticeOf (data : Calldata) : List Call → Option Nat
  | [] => none
  | c :: earlier =>
    if c.data = data then
      match c.stage with
      | .registered => noticeOf data earlier
      | .delayed => some c.time
      | .executed => none
    else noticeOf data earlier

/-- What went before a call that got beyond registering its sender. -/
structure Call.Proper (c : Call) (earlier : List Call) : Prop where
  /-- The other of the two parties had made the same call, to no other avail. -/
  agreed : c.stage ≠ .registered → (c.sender = c.operator ∨ c.sender = c.methodologist) ∧
    stands c.data c.other earlier = true
  /-- A fee changes under a period only with a notice that is as old. -/
  noticed : c.stage = .executed → c.data.method.isTimeLocked = true → 0 < c.period →
    ∃ time, noticeOf c.data earlier = some time ∧ time + c.period ≤ c.time

def AllProper : List Call → Prop
  | [] => True
  | c :: earlier => c.Proper earlier ∧ AllProper earlier

/-- The storage is a summary of the calls. -/
structure Remembers (r : Recorded ω) : Prop where
  stands : ∀ data party, r.world.extension.mutualUpgrades (data, party) =
    FeeSplitExtension.stands data party r.calls
  notice : ∀ data, r.world.extension.lock.timeLockedUpgrades data = (noticeOf data r.calls).getD 0
  /-- Nothing is locked without a period, nor by the other methods. -/
  idle : ∀ data, r.period = 0 ∨ data.method.isTimeLocked = false →
    r.world.extension.lock.timeLockedUpgrades data = 0
  now_pos : 0 < r.now

variable {e} {r t : Recorded ω} {c : Call} {v : FeeSplitWorld ω} {sender : Address}
  {data : Calldata} {stage : Stage}

theorem stands_registered {party : Address} {key : Calldata} (h : c.stage = .registered) :
    stands key party (c :: r.calls) =
      if (key, party) = (c.data, c.sender) then true else stands key party r.calls := by
  rw [stands]
  by_cases hsame : c.data = key
  · subst hsame
    by_cases hsender : c.sender = party
    · simp [h, hsender]
    · simp [h, hsender, Ne.symm hsender]
  · rw [if_neg hsame, if_neg fun hkey => hsame (Prod.mk.inj hkey).1.symm]

theorem stands_used {party : Address} {key : Calldata} (h : c.stage ≠ .registered) :
    stands key party (c :: r.calls) =
      if (key, party) = (c.data, c.other) then false else stands key party r.calls := by
  rw [stands]
  by_cases hsame : c.data = key
  · subst hsame
    by_cases hother : c.other = party
    · simp [h, hother]
    · simp [h, hother, Ne.symm hother]
  · rw [if_neg hsame, if_neg fun hkey => hsame (Prod.mk.inj hkey).1.symm]

theorem noticeOf_of_ne {key : Calldata} (h : c.data ≠ key) :
    noticeOf key (c :: r.calls) = noticeOf key r.calls := if_neg h

/-- The registrations after a call are those that stand. -/
theorem Remembers.stands_call (h : Remembers r)
    (hstep : CallStep e r.world v sender r.now data stage) (hc : c = ⟨sender,
      e.operator r.world.others, e.methodologist r.world.others, data, r.now, r.period, stage⟩)
    (key : Calldata) (party : Address) :
    v.extension.mutualUpgrades (key, party) =
      FeeSplitExtension.stands key party (c :: r.calls) := by
  subst hc
  cases hstep.2 with
  | inl hregistering =>
    obtain ⟨_, hmutual, _, rfl⟩ := hregistering
    rw [stands_registered rfl, hmutual, Function.update_apply, h.stands]
  | inr hused =>
    obtain ⟨_, hmutual, hlock⟩ := hused
    have hstage : stage ≠ .registered := by
      rcases hlock with ⟨_, _, rfl⟩ | ⟨_, _, ⟨_, _, rfl⟩ | ⟨_, _, _, rfl⟩⟩ <;> decide
    rw [stands_used hstage, hmutual, Function.update_apply, h.stands]
    rfl

/-- The time lock after a call is the notice that nobody acted on. -/
theorem Remembers.notice_call (h : Remembers r)
    (hstep : CallStep e r.world v sender r.now data stage) (hdata : c.data = data)
    (htime : c.time = r.now) (hstage : c.stage = stage) (key : Calldata) :
    v.extension.lock.timeLockedUpgrades key = (noticeOf key (c :: r.calls)).getD 0 := by
  by_cases hsame : c.data = key
  · have hkey : key = data := hsame.symm.trans hdata
    rw [noticeOf, if_pos hsame, hstage, hkey]
    rcases hstep.2 with ⟨_, _, hlock, rfl⟩ | ⟨_, _, hlock⟩
    · rw [hlock]
      exact h.notice data
    · rcases hlock with ⟨hidle, hlock, rfl⟩ | ⟨_, _, ⟨_, hlock, rfl⟩ | ⟨_, _, hlock, rfl⟩⟩
      · rw [hlock]
        exact h.idle data hidle
      · rw [hlock]
        exact (Function.update_self ..).trans htime.symm
      · rw [hlock]
        exact Function.update_self ..
  · have hkey : key ≠ data := fun hkey => hsame (hdata.trans hkey.symm)
    rw [noticeOf_of_ne hsame, ← h.notice key]
    rcases hstep.2 with ⟨_, _, hlock, _⟩ |
      ⟨_, _, ⟨_, hlock, _⟩ | ⟨_, _, ⟨_, hlock, _⟩ | ⟨_, _, hlock, _⟩⟩⟩
    · rw [hlock]
    · rw [hlock]
    · rw [hlock]
      exact Function.update_of_ne hkey ..
    · rw [hlock]
      exact Function.update_of_ne hkey ..

theorem call_period (hstep : CallStep e r.world v sender r.now data stage) :
    v.extension.lock.timeLockPeriod = r.period := by
  rcases hstep.2 with ⟨_, _, hlock, _⟩ |
      ⟨_, _, ⟨_, hlock, _⟩ | ⟨_, _, ⟨_, hlock, _⟩ | ⟨_, _, hlock, _⟩⟩⟩ <;>
    rw [hlock] <;> rfl

theorem Remembers.idle_call (h : Remembers r)
    (hstep : CallStep e r.world v sender r.now data stage) (key : Calldata)
    (hidle : r.period = 0 ∨ key.method.isTimeLocked = false) :
    v.extension.lock.timeLockedUpgrades key = 0 := by
  rcases hstep.2 with ⟨_, _, hlock, _⟩ | ⟨_, _, ⟨_, hlock, _⟩ | ⟨hperiod, hlocked, hlock⟩⟩
  · rw [hlock]
    exact h.idle key hidle
  · rw [hlock]
    exact h.idle key hidle
  · have hkey : key ≠ data := by
      rintro rfl
      cases hidle with
      | inl hnone => exact hperiod hnone
      | inr hfree => rw [hlocked] at hfree; cases hfree
    rcases hlock with ⟨_, hlock, _⟩ | ⟨_, _, hlock, _⟩
    · rw [hlock]
      exact (Function.update_of_ne hkey ..).trans (h.idle key hidle)
    · rw [hlock]
      exact (Function.update_of_ne hkey ..).trans (h.idle key hidle)

/-- A call that gets beyond registering its sender was prepared. -/
theorem Remembers.proper (h : Remembers r)
    (hstep : CallStep e r.world v sender r.now data stage) :
    Call.Proper ⟨sender, e.operator r.world.others, e.methodologist r.world.others, data, r.now,
      r.period, stage⟩ r.calls := by
  constructor
  · intro hstage
    refine ⟨hstep.1, ?_⟩
    rcases hstep.2 with ⟨_, _, _, hregistered⟩ | ⟨hmutual, _⟩
    · exact absurd hregistered hstage
    · rw [h.stands] at hmutual
      exact hmutual
  · intro hstage hlocked hperiod
    dsimp only at hstage hlocked hperiod ⊢
    rcases hstep.2 with ⟨_, _, _, hregistered⟩ |
      ⟨_, _, ⟨hidle, _⟩ | ⟨_, _, ⟨_, _, hdelayed⟩ | ⟨hset, hready, _⟩⟩⟩
    · rw [hregistered] at hstage
      cases hstage
    · cases hidle with
      | inl hnone => exact absurd hnone hperiod.ne'
      | inr hfree => rw [hlocked] at hfree; cases hfree
    · rw [hdelayed] at hstage
      cases hstage
    · rw [h.notice data] at hset hready
      cases hnotice : noticeOf data r.calls with
      | none =>
        rw [hnotice] at hset
        exact absurd rfl hset
      | some time =>
        rw [hnotice] at hready
        exact ⟨time, rfl, hready⟩

theorem Remembers.of_same {w : FeeSplitWorld ω} {now : Nat} (h : Remembers r)
    (hmutual : w.extension.mutualUpgrades = r.world.extension.mutualUpgrades)
    (htimes : w.extension.lock.timeLockedUpgrades = r.world.extension.lock.timeLockedUpgrades)
    (hperiod : r.period ≤ w.extension.lock.timeLockPeriod) (hnow : r.now ≤ now) :
    Remembers ⟨w, now, r.calls⟩ := by
  refine ⟨fun key party => ?_, fun key => ?_, fun key hidle => ?_, h.now_pos.trans_le hnow⟩
  · rw [hmutual]
    exact h.stands key party
  · rw [htimes]
    exact h.notice key
  · rw [htimes]
    refine h.idle key (hidle.imp_left fun hnone => ?_)
    exact Nat.eq_zero_of_le_zero (hperiod.trans_eq hnone)

/-- What holds at every point of a run. -/
structure Sound (r : Recorded ω) : Prop where
  remembers : Remembers r
  proper : AllProper r.calls

theorem record_sound {a : Action ω} (h : Sound r) (ht : record e r a = .ok t) :
    Sound t ∧ r.period ≤ t.period := by
  cases a with
  | call sender data =>
    simp only [record, bind_eq_ok, pure_eq_ok] at ht
    obtain ⟨⟨v, stage⟩, hcall, rfl⟩ := ht
    have hstep := call_step hcall
    have hperiod := call_period hstep
    refine ⟨⟨⟨?_, ?_, ?_, h.remembers.now_pos⟩, h.remembers.proper hstep, h.proper⟩, hperiod.ge⟩
    · exact h.remembers.stands_call hstep rfl
    · exact h.remembers.notice_call hstep rfl rfl rfl
    · intro key hidle
      refine h.remembers.idle_call hstep key (hidle.imp_left fun hnone => ?_)
      exact hperiod.symm.trans hnone
  | setTimeLockPeriod sender timeLockPeriod =>
    simp only [record, setTimeLockPeriod, setLock, TimeLockUpgrade.setTimeLockPeriod, bind_eq_ok,
      require_eq_ok, pure_eq_ok] at ht
    obtain ⟨_, ⟨_, ⟨_, _, _, hgreater, rfl⟩, rfl⟩, rfl⟩ := ht
    exact ⟨⟨h.remembers.of_same rfl rfl hgreater.le le_rfl, h.proper⟩, hgreater.le⟩
  | transferOwnership sender newOwner =>
    simp only [record, transferOwnership, setLock, bind_eq_ok, pure_eq_ok] at ht
    obtain ⟨_, ⟨_, ⟨_, _, rfl⟩, rfl⟩, rfl⟩ := ht
    exact ⟨⟨h.remembers.of_same rfl rfl le_rfl le_rfl, h.proper⟩, le_rfl⟩
  | renounceOwnership sender =>
    simp only [record, renounceOwnership, setLock, bind_eq_ok, pure_eq_ok] at ht
    obtain ⟨_, ⟨_, ⟨_, _, rfl⟩, rfl⟩, rfl⟩ := ht
    exact ⟨⟨h.remembers.of_same rfl rfl le_rfl le_rfl, h.proper⟩, le_rfl⟩
  | updateOperatorFeeRecipient sender newOperatorFeeRecipient =>
    simp only [record, updateOperatorFeeRecipient, bind_eq_ok, pure_eq_ok] at ht
    obtain ⟨_, ⟨_, _, _, _, rfl⟩, rfl⟩ := ht
    exact ⟨⟨h.remembers.of_same rfl rfl le_rfl le_rfl, h.proper⟩, le_rfl⟩
  | accrueFeesAndDistribute =>
    simp only [record, bind_eq_ok, pure_eq_ok] at ht
    obtain ⟨w, hcall, rfl⟩ := ht
    obtain ⟨hmutual, hlock⟩ := accrueFeesAndDistribute_keeps _ _ hcall
    have hperiod : r.period = w.extension.lock.timeLockPeriod := by
      rw [hlock]
      rfl
    refine ⟨⟨h.remembers.of_same hmutual ?_ hperiod.le le_rfl, h.proper⟩, hperiod.le⟩
    rw [hlock]
  | elsewhere others now =>
    simp only [record, bind_eq_ok, require_eq_ok, pure_eq_ok] at ht
    obtain ⟨_, hnow, rfl⟩ := ht
    exact ⟨⟨h.remembers.of_same rfl rfl le_rfl hnow, h.proper⟩, le_rfl⟩

theorem runs_sound {actions : List (Action ω)} (h : Sound r)
    (hr : runs (record e) r actions = .ok t) : Sound t ∧ r.period ≤ t.period := by
  refine runs_invariant (fun u => Sound u ∧ r.period ≤ u.period) (fun s a u hs hu => ?_)
    ⟨h, le_rfl⟩ hr
  obtain ⟨hsound, hperiod⟩ := record_sound hs.1 hu
  exact ⟨hsound, hs.2.trans hperiod⟩

/-- As deployed, at some time. -/
def deployed (streamingFeeModule issuanceModule : Address) (operatorFeeSplit : Nat)
    (operatorFeeRecipient owner : Address) (others : ω) (now : Nat) : Recorded ω :=
  ⟨⟨construct streamingFeeModule issuanceModule operatorFeeSplit operatorFeeRecipient owner,
    others⟩, now, []⟩

theorem deployed_sound {streamingFeeModule issuanceModule : Address} {operatorFeeSplit : Nat}
    {operatorFeeRecipient owner : Address} {others : ω} {now : Nat} (hnow : 0 < now) :
    Sound (deployed streamingFeeModule issuanceModule operatorFeeSplit operatorFeeRecipient owner
      others now) :=
  ⟨⟨fun _ _ => rfl, fun _ => rfl, fun _ _ => rfl, hnow⟩, trivial⟩

/-- **Agreed and noticed.** In every run of the extension, a call gets beyond registering its
sender only where the other party had made the same call, to no other avail; a fee changes under a
period only with a notice as old as the period, on which nobody acted; and the period never
decreases from one point of the run to a later one. -/
theorem fees_noticed {streamingFeeModule issuanceModule : Address} {operatorFeeSplit : Nat}
    {operatorFeeRecipient owner : Address} {others : ω} {now : Nat}
    {actions later : List (Action ω)} (hnow : 0 < now)
    (hr : runs (record e) (deployed streamingFeeModule issuanceModule operatorFeeSplit
      operatorFeeRecipient owner others now) actions = .ok r)
    (ht : runs (record e) r later = .ok t) : AllProper t.calls ∧ r.period ≤ t.period := by
  obtain ⟨hsound, _⟩ := runs_sound (deployed_sound hnow) hr
  obtain ⟨hlater, hperiod⟩ := runs_sound hsound ht
  exact ⟨hlater.proper, hperiod⟩

/-! The operator is 1 and the methodologist 2; nothing else answers. -/

def exampleSurroundings : Surroundings Unit where
  operator _ := 1
  methodologist _ := 2
  setToken _ := 3
  interactManager _ _ others := .ok others
  accrueFee others := .ok others
  collected _ := 0
  transfer _ _ others := .ok others

def exampleFee : Calldata := ⟨.updateIssueFee (10 ^ 16), []⟩

/-- Both give notice, and after a day both carry the change out. -/
theorem fees_noticed_example : ∃ r t, runs (record exampleSurroundings)
      (deployed 4 5 0 1 1 () 1000) [.setTimeLockPeriod 1 86400] = .ok r ∧
    runs (record exampleSurroundings) r
      [.call 1 exampleFee, .call 2 exampleFee, .elsewhere () 90000, .call 2 exampleFee,
        .call 1 exampleFee] = .ok t ∧
    t.calls.map Call.stage = [.executed, .registered, .delayed, .registered] ∧
    AllProper t.calls ∧ r.period ≤ t.period := by
  have h : (do
      let r ← runs (record exampleSurroundings) (deployed 4 5 0 1 1 () 1000)
        [Action.setTimeLockPeriod 1 86400]
      let t ← runs (record exampleSurroundings) r
        [Action.call 1 exampleFee, .call 2 exampleFee, .elsewhere () 90000, .call 2 exampleFee,
          .call 1 exampleFee]
      require (t.calls.map Call.stage = [Stage.executed, .registered, .delayed, .registered]) "") =
        .ok () := by
    decide +kernel
  simp only [bind_eq_ok, require_eq_ok] at h
  obtain ⟨r, hr, t, ht, hstages⟩ := h
  exact ⟨r, t, hr, ht, hstages, fees_noticed (by decide) hr ht⟩

end FeeSplitExtension

end IndexProtocol
