import IndexProtocol.Token.IndexToken

/-! The votes of INDEX over whole runs.

In every state that a run reaches, a delegate's votes are what the accounts that
delegate to it hold, so no count leaves its type and none falls short of what is taken
from it: the counting never stops a transfer or a delegation. The checkpoints of a
delegate form a history with increasing blocks, and what `getPriorVotes` returns for a
block is what the votes were after the last transaction of that block. -/
namespace IndexProtocol.IndexToken
open Evm Delegation

/-! ### Checkpoints as histories -/

/-- The checkpoints of a delegate. -/
def history (t : IndexToken) (rep : Address) : History Nat :=
  ⟨t.checkpoints rep, t.numCheckpoints rep⟩

def setHistory (t : IndexToken) (rep : Address) (h : History Nat) : IndexToken :=
  { t with
    checkpoints := Function.update t.checkpoints rep h.checkpoint
    numCheckpoints := Function.update t.numCheckpoints rep h.count }

/-- A delegate's votes are recorded in a block. -/
def recorded (t : IndexToken) (now : Nat) (rep : Address) (votes : Nat) : IndexToken :=
  t.setHistory rep ((t.history rep).record now votes)

/-- A delegate gets a number of votes, unless it is nobody. -/
def counted (t : IndexToken) (now : Nat) (rep : Address) (votes : Nat) : IndexToken :=
  if rep ≠ 0 then t.recorded now rep votes else t

/-- Votes go from one delegate to another. -/
def moved (t : IndexToken) (now : Nat) (srcRep dstRep : Address) (amount : Nat) : IndexToken :=
  if srcRep ≠ dstRep ∧ 0 < amount then
    let t := t.counted now srcRep (t.getCurrentVotes srcRep - amount)
    t.counted now dstRep (t.getCurrentVotes dstRep + amount)
  else t

section Recorded
variable {t t' : IndexToken} {now amount v : Nat} {rep other srcRep dstRep : Address}

theorem getCurrentVotes_eq (t : IndexToken) (rep : Address) :
    t.getCurrentVotes rep = (t.history rep).latest 0 := rfl

@[simp] theorem history_recorded :
    (t.recorded now rep v).history rep = (t.history rep).record now v := by
  simp [recorded, setHistory, history]

theorem history_recorded_of_ne (h : other ≠ rep) :
    (t.recorded now rep v).history other = t.history other := by
  simp [recorded, setHistory, history, h]

@[simp] theorem getCurrentVotes_recorded : (t.recorded now rep v).getCurrentVotes rep = v := by
  rw [getCurrentVotes_eq, history_recorded, History.latest_record]

theorem getCurrentVotes_recorded_of_ne (h : other ≠ rep) :
    (t.recorded now rep v).getCurrentVotes other = t.getCurrentVotes other := by
  rw [getCurrentVotes_eq, history_recorded_of_ne h, getCurrentVotes_eq]

/-- The number of checkpoints of an ordered history does not wrap. -/
theorem writeCheckpoint_eq (h : (t.history rep).UpTo now) (hpos : 0 < now) (hnow : now < 2 ^ 32) :
    t.writeCheckpoint now rep (t.numCheckpoints rep) v = .ok (t.recorded now rep v) := by
  have hsafe : safe32 now "INDEX._writeCheckpoint: block number exceeds 32 bits" = .ok now := by
    rw [safe32, require, if_pos hnow]
    rfl
  rw [writeCheckpoint, hsafe, ok_bind, recorded, History.record]
  show (if 0 < t.numCheckpoints rep ∧
    (t.checkpoints rep (t.numCheckpoints rep - 1)).time = now then _ else _) = _
  by_cases hsame : 0 < t.numCheckpoints rep ∧
      (t.checkpoints rep (t.numCheckpoints rep - 1)).time = now
  · rw [if_pos hsame, if_pos (show 0 < (t.history rep).count ∧
      ((t.history rep).checkpoint ((t.history rep).count - 1)).time = now from hsame)]
    simp [setHistory, history, History.replaceLast, pure, Except.pure]
  · have hcount := (h.push (v := v) hpos (h.before_now hsame)).count_le
    have hwrap : (t.numCheckpoints rep + 1) % 2 ^ 32 = t.numCheckpoints rep + 1 :=
      Nat.mod_eq_of_lt (hcount.trans_lt hnow)
    rw [if_neg hsame, if_neg (show ¬(0 < (t.history rep).count ∧
      ((t.history rep).checkpoint ((t.history rep).count - 1)).time = now) from hsame), hwrap]
    rfl

theorem writeCheckpoint_eq_ok (h : (t.history rep).UpTo now) (hpos : 0 < now) :
    t.writeCheckpoint now rep (t.numCheckpoints rep) v = .ok t' ↔
      now < 2 ^ 32 ∧ t.recorded now rep v = t' := by
  by_cases hnow : now < 2 ^ 32
  · rw [writeCheckpoint_eq h hpos hnow, Except.ok.injEq, and_iff_right hnow]
  · refine iff_of_false (fun hok => ?_) fun hboth => hnow hboth.1
    simp only [writeCheckpoint, safe32, bind_eq_ok, require_eq_ok, exists_const] at hok
    obtain ⟨_, ⟨hlt, _⟩, _⟩ := hok
    exact hnow hlt

theorem sub96_eq_ok {a b c : Nat} {reason : String} :
    sub96 a b reason = .ok c ↔ b ≤ a ∧ a - b = c := by
  simp only [sub96, bind_eq_ok, require_eq_ok, pure_eq_ok, exists_const]

/-- A sum that is a `uint96` does not wrap. -/
theorem add96_eq {a b : Nat} {reason : String} (h : a + b < 2 ^ 96) :
    add96 a b reason = .ok (a + b) := by
  rw [add96, Nat.mod_eq_of_lt h, require, if_pos (Nat.le_add_right a b)]
  rfl

end Recorded

/-! ### What a move of votes does -/

/-- The delegates' votes are counted, and in order. Nobody has none. -/
structure Counts (t : IndexToken) (now : Nat) (votes : Address → Nat) : Prop where
  votes : ∀ rep, rep ≠ 0 → t.getCurrentVotes rep = votes rep
  nobody : t.numCheckpoints 0 = 0
  recorded : ∀ rep, (t.history rep).UpTo now

section Moved
variable {t t' : IndexToken} {now amount v : Nat} {rep srcRep dstRep : Address}
  {votes votes' : Address → Nat}

theorem Counts.later {now' : Nat} (h : t.Counts now votes) (hle : now ≤ now') :
    t.Counts now' votes :=
  { h with recorded := fun rep => (h.recorded rep).later hle }

/-- What is counted of delegates that are somebody is all that is counted. -/
theorem Counts.congr (h : t.Counts now votes) (heq : ∀ rep, rep ≠ 0 → votes rep = votes' rep) :
    t.Counts now votes' :=
  { h with votes := fun rep hrep => (h.votes rep hrep).trans (heq rep hrep) }

theorem Counts.counted (h : t.Counts now votes) (hpos : 0 < now) (rep : Address) (v : Nat) :
    (t.counted now rep v).Counts now (Function.update votes rep v) := by
  unfold IndexToken.counted
  split
  · next hrep =>
    refine ⟨fun other hother => ?_, ?_, fun other => ?_⟩
    · by_cases heq : other = rep
      · rw [heq, getCurrentVotes_recorded, Function.update_self]
      · rw [getCurrentVotes_recorded_of_ne heq, Function.update_of_ne heq, h.votes other hother]
    · show Function.update t.numCheckpoints rep _ 0 = 0
      rw [Function.update_of_ne (Ne.symm hrep), h.nobody]
    · by_cases heq : other = rep
      · rw [heq, history_recorded]
        exact (h.recorded rep).record hpos
      · rw [history_recorded_of_ne heq]
        exact h.recorded other
  · next hrep =>
    obtain rfl : rep = 0 := not_not.mp hrep
    exact h.congr fun other hother => (Function.update_of_ne hother _ _).symm

/-- Votes that go from one delegate to another are counted so. -/
theorem Counts.moved (h : t.Counts now votes) (hpos : 0 < now)
    (hmove : ∀ rep, votes' rep + (if srcRep = rep then amount else 0) =
      votes rep + if dstRep = rep then amount else 0) :
    (t.moved now srcRep dstRep amount).Counts now votes' := by
  unfold IndexToken.moved
  split
  · next hmoves =>
    have hsrc := h.counted hpos srcRep (t.getCurrentVotes srcRep - amount)
    refine (hsrc.counted hpos dstRep _).congr fun rep hrep => ?_
    have hrepMove := hmove rep
    by_cases hdst : dstRep = rep
    · subst hdst
      rw [if_neg hmoves.1, if_pos rfl, Nat.add_zero] at hrepMove
      rw [Function.update_self, hsrc.votes dstRep hrep, Function.update_of_ne (Ne.symm hmoves.1),
        hrepMove]
    · rw [if_neg hdst, Nat.add_zero] at hrepMove
      rw [Function.update_of_ne (Ne.symm hdst)]
      by_cases hsrcRep : srcRep = rep
      · subst hsrcRep
        rw [if_pos rfl] at hrepMove
        rw [Function.update_self, h.votes srcRep hrep, ← hrepMove, Nat.add_sub_cancel]
      · rw [if_neg hsrcRep, Nat.add_zero] at hrepMove
        rw [Function.update_of_ne (Ne.symm hsrcRep), hrepMove]
  · next hnone =>
    refine h.congr fun rep hrep => ?_
    have hrepMove := hmove rep
    by_cases heq : srcRep = dstRep
    · rw [heq] at hrepMove
      omega
    · have hzero : amount = 0 := Nat.eq_zero_of_not_pos fun hlt => hnone ⟨heq, hlt⟩
      simpa [hzero] using hrepMove.symm

theorem takeVotes_eq_ok (h : t.Counts now votes) (hpos : 0 < now) (hsrc : amount ≤ votes srcRep) :
    t.takeVotes now srcRep amount = .ok t' ↔ (srcRep ≠ 0 → now < 2 ^ 32) ∧
      t.counted now srcRep (t.getCurrentVotes srcRep - amount) = t' := by
  unfold takeVotes IndexToken.counted
  by_cases hne : srcRep ≠ 0
  · have hle : amount ≤ t.getCurrentVotes srcRep := (h.votes srcRep hne).symm ▸ hsrc
    simp only [if_pos hne, bind_eq_ok, sub96_eq_ok, hle, true_and, exists_eq_left',
      writeCheckpoint_eq_ok (h.recorded srcRep) hpos]
    exact and_congr_left' ⟨fun hnow _ => hnow, fun hall => hall hne⟩
  · rw [if_neg hne, if_neg hne, pure_eq_ok]
    exact (and_iff_right fun hsomebody => absurd hsomebody hne).symm

theorem addVotes_eq_ok (h : t.Counts now votes) (hpos : 0 < now)
    (hdst : votes dstRep + amount < 2 ^ 96) :
    t.addVotes now dstRep amount = .ok t' ↔ (dstRep ≠ 0 → now < 2 ^ 32) ∧
      t.counted now dstRep (t.getCurrentVotes dstRep + amount) = t' := by
  unfold addVotes IndexToken.counted
  by_cases hne : dstRep ≠ 0
  · have hfits : t.getCurrentVotes dstRep + amount < 2 ^ 96 :=
      (h.votes dstRep hne).symm ▸ hdst
    simp only [if_pos hne, bind_eq_ok, add96_eq hfits, Except.ok.injEq, exists_eq_left',
      writeCheckpoint_eq_ok (h.recorded dstRep) hpos]
    exact and_congr_left' ⟨fun hnow _ => hnow, fun hall => hall hne⟩
  · rw [if_neg hne, if_neg hne, pure_eq_ok]
    exact (and_iff_right fun hsomebody => absurd hsomebody hne).symm

/-- Where the votes suffice and their sum is a `uint96`, only the number of the block can stop a
move of votes. -/
theorem moveDelegates_eq_ok (h : t.Counts now votes) (hpos : 0 < now)
    (hsrc : amount ≤ votes srcRep) (hdst : srcRep ≠ dstRep → votes dstRep + amount < 2 ^ 96) :
    t.moveDelegates now srcRep dstRep amount = .ok t' ↔
      (srcRep ≠ dstRep ∧ 0 < amount → now < 2 ^ 32) ∧ t.moved now srcRep dstRep amount = t' := by
  unfold moveDelegates IndexToken.moved
  by_cases hmoves : srcRep ≠ dstRep ∧ 0 < amount
  · have hsecond := h.counted hpos srcRep (t.getCurrentVotes srcRep - amount)
    have hfits : Function.update votes srcRep (t.getCurrentVotes srcRep - amount) dstRep + amount <
        2 ^ 96 := by
      rw [Function.update_of_ne (Ne.symm hmoves.1)]
      exact hdst hmoves.1
    simp only [if_pos hmoves, bind_eq_ok, takeVotes_eq_ok h hpos hsrc, and_assoc, exists_and_left,
      exists_eq_left', addVotes_eq_ok hsecond hpos hfits]
    rw [← and_assoc]
    refine and_congr_left' ⟨fun hnow _ => ?_, fun hnow => ⟨fun _ => hnow hmoves, fun _ => hnow hmoves⟩⟩
    -- Of two different delegates one is somebody.
    by_cases hsomebody : srcRep = 0
    · exact hnow.2 fun hnobody => hmoves.1 (hsomebody.trans hnobody.symm)
    · exact hnow.1 hsomebody
  · rw [if_neg hmoves, if_neg hmoves, pure_eq_ok]
    exact (and_iff_right fun hall => absurd hall hmoves).symm

/-! A move of votes changes checkpoints only, and none before its block. -/

@[simp] theorem moved_balances : (t.moved now srcRep dstRep amount).balances = t.balances := by
  simp only [IndexToken.moved, IndexToken.counted]
  split_ifs <;> rfl

@[simp] theorem moved_delegates : (t.moved now srcRep dstRep amount).delegates = t.delegates := by
  simp only [IndexToken.moved, IndexToken.counted]
  split_ifs <;> rfl

@[simp] theorem moved_nonces : (t.moved now srcRep dstRep amount).nonces = t.nonces := by
  simp only [IndexToken.moved, IndexToken.counted]
  split_ifs <;> rfl

theorem valueAt_counted {other : Address} {time : Nat} (hlt : time < now) :
    ((t.counted now rep v).history other).valueAt 0 time = (t.history other).valueAt 0 time := by
  unfold IndexToken.counted
  split
  · by_cases heq : other = rep
    · rw [heq, history_recorded, History.valueAt_record hlt]
    · rw [history_recorded_of_ne heq]
  · rfl

theorem valueAt_moved {other : Address} {time : Nat} (hlt : time < now) :
    ((t.moved now srcRep dstRep amount).history other).valueAt 0 time =
      (t.history other).valueAt 0 time := by
  unfold IndexToken.moved
  split
  · rw [valueAt_counted hlt, valueAt_counted hlt]
  · rfl

end Moved

/-! ### What holds in every state of a run -/

structure Sound (t : IndexToken) (now : Nat) : Prop where
  supply : ∑ account, t.balances account = totalSupply
  counts : t.Counts now (weight t.delegates t.balances)

section Sound
variable {t t' : IndexToken} {block : Block} {now amount : Nat}
  {account src dst delegator delegatee : Address}

/-- Balances after a transfer that the first of them covers. -/
def sent (balances : Address → Nat) (src dst : Address) (amount : Nat) : Address → Nat :=
  let balances := Function.update balances src (balances src - amount)
  Function.update balances dst (balances dst + amount)

theorem sent_moved {balances : Address → Nat} (dst : Address) (h : amount ≤ balances src) :
    Moved balances (sent balances src dst amount) src dst amount := by
  intro account
  simp only [sent, Function.update_apply]
  split_ifs <;> simp_all

theorem totalSupply_lt : totalSupply < 2 ^ 96 := by decide

theorem Sound.weight_lt (h : t.Sound now) (rep : Address) :
    weight t.delegates t.balances rep < 2 ^ 96 := by
  refine (weight_le_total rep).trans_lt ?_
  rw [h.supply]
  exact totalSupply_lt

/-- What any delegate has after a transfer is a `uint96`. -/
theorem Sound.sent_weight_lt (h : t.Sound now) (hle : amount ≤ t.balances src) (rep : Address) :
    weight t.delegates (sent t.balances src dst amount) rep < 2 ^ 96 := by
  refine (weight_le_total rep).trans_lt ?_
  rw [(sent_moved dst hle).total, h.supply]
  exact totalSupply_lt

/-- The votes counted, where balances or delegates are about to change. -/
theorem Sound.counts_later (h : t.Sound now) (hlater : now ≤ block.number)
    {allowances : Address → Address → Nat} {balances : Address → Nat}
    {delegates : Address → Address} {nonces : Address → Nat} :
    Counts ⟨allowances, balances, delegates, t.checkpoints, t.numCheckpoints, nonces⟩ block.number
      (weight t.delegates t.balances) :=
  ⟨(h.counts.later hlater).votes, h.counts.nobody, (h.counts.later hlater).recorded⟩

theorem transferTokens_eq_ok (h : t.Sound now) (hlater : now ≤ block.number)
    (hpos : 0 < block.number) :
    t.transferTokens block src dst amount = .ok t' ↔
      src ≠ 0 ∧ dst ≠ 0 ∧ amount ≤ t.balances src ∧
        (t.delegates src ≠ t.delegates dst ∧ 0 < amount → block.number < 2 ^ 32) ∧
        { t with balances := sent t.balances src dst amount }.moved block.number
          (t.delegates src) (t.delegates dst) amount = t' := by
  simp only [transferTokens, bind_eq_ok, require_eq_ok, sub96_eq_ok, exists_const]
  refine and_congr_right fun _ => and_congr_right fun _ => ?_
  by_cases hle : amount ≤ t.balances src
  · have hbalance : sent t.balances src dst amount dst < 2 ^ 96 :=
      (balance_le_weight dst).trans_lt (h.sent_weight_lt hle (t.delegates dst))
    have hfits : Function.update t.balances src (t.balances src - amount) dst + amount < 2 ^ 96 := by
      simpa [sent] using hbalance
    simp only [hle, true_and, exists_eq_left', add96_eq hfits, Except.ok.injEq]
    refine moveDelegates_eq_ok (h.counts_later hlater) hpos (hle.trans (balance_le_weight src)) fun hne => ?_
    have hweight : weight t.delegates (sent t.balances src dst amount) (t.delegates dst) + _ = _ :=
      (sent_moved dst hle).weight (t.delegates dst)
    rw [if_neg hne, if_pos rfl, Nat.add_zero] at hweight
    rw [← hweight]
    exact h.sent_weight_lt hle _
  · simp only [hle, false_and, exists_false]

theorem transferTokens_sound (h : t.Sound now) (hlater : now ≤ block.number)
    (hpos : 0 < block.number) (ht : t.transferTokens block src dst amount = .ok t') :
    t'.Sound block.number := by
  obtain ⟨_, _, hle, _, rfl⟩ := (transferTokens_eq_ok h hlater hpos).mp ht
  have hmoved := sent_moved dst hle
  refine ⟨?_, ?_⟩
  · rw [moved_balances]
    exact hmoved.total.trans h.supply
  · rw [moved_balances, moved_delegates]
    exact (h.counts_later hlater).moved hpos hmoved.weight

theorem delegateInternal_eq_ok (h : t.Sound now) (hlater : now ≤ block.number)
    (hpos : 0 < block.number) :
    t.delegateInternal block delegator delegatee = .ok t' ↔
      (t.delegates delegator ≠ delegatee ∧ 0 < t.balances delegator → block.number < 2 ^ 32) ∧
        { t with delegates := Function.update t.delegates delegator delegatee }.moved block.number
          (t.delegates delegator) delegatee (t.balances delegator) = t' := by
  refine moveDelegates_eq_ok (h.counts_later hlater) hpos (balance_le_weight delegator) fun hne => ?_
  have hweight : _ + _ = weight t.delegates t.balances delegatee + _ :=
    weight_update delegator delegatee delegatee
  rw [if_neg hne, if_pos rfl, Nat.add_zero] at hweight
  rw [← hweight]
  refine (weight_le_total delegatee).trans_lt ?_
  rw [h.supply]
  exact totalSupply_lt

theorem delegateInternal_sound (h : t.Sound now) (hlater : now ≤ block.number)
    (hpos : 0 < block.number) (ht : t.delegateInternal block delegator delegatee = .ok t') :
    t'.Sound block.number := by
  obtain ⟨_, rfl⟩ := (delegateInternal_eq_ok h hlater hpos).mp ht
  refine ⟨by rw [moved_balances]; exact h.supply, ?_⟩
  rw [moved_balances, moved_delegates]
  exact (h.counts_later hlater).moved hpos (weight_update delegator delegatee)

end Sound

/-! ### Transactions -/

section Transactions
variable {signing : Signing} {t t' : IndexToken} {tx : Transaction} {now : Nat}

/-- The same but for allowances and nonces. -/
structure SameVotes (t t' : IndexToken) : Prop where
  balances : t'.balances = t.balances
  delegates : t'.delegates = t.delegates
  checkpoints : t'.checkpoints = t.checkpoints
  numCheckpoints : t'.numCheckpoints = t.numCheckpoints

theorem Sound.of_same (h : t.Sound now) (hsame : t.SameVotes t') : t'.Sound now := by
  obtain ⟨hbalances, hdelegates, hcheckpoints, hnum⟩ := hsame
  have hvotes (rep : Address) : t'.getCurrentVotes rep = t.getCurrentVotes rep := by
    rw [getCurrentVotes, getCurrentVotes, hcheckpoints, hnum]
  refine ⟨hbalances ▸ h.supply, fun rep hrep => ?_, hnum ▸ h.counts.nobody, fun rep => ?_⟩
  · rw [hvotes, hbalances, hdelegates]
    exact h.counts.votes rep hrep
  · rw [history, hcheckpoints, hnum]
    exact h.counts.recorded rep

theorem spendAllowance_same {spender src : Address} {amount : Nat}
    (h : t.spendAllowance spender src amount = .ok t') : t.SameVotes t' := by
  unfold spendAllowance at h
  split at h
  · simp only [bind_eq_ok, pure_eq_ok] at h
    obtain ⟨_, _, rfl⟩ := h
    exact ⟨rfl, rfl, rfl, rfl⟩
  · rw [pure_eq_ok] at h
    subst h
    exact ⟨rfl, rfl, rfl, rfl⟩

theorem spendAllowance_nonces {spender src : Address} {amount : Nat}
    (h : t.spendAllowance spender src amount = .ok t') : t'.nonces = t.nonces := by
  unfold spendAllowance at h
  split at h
  · simp only [bind_eq_ok, pure_eq_ok] at h
    obtain ⟨_, _, rfl⟩ := h
    rfl
  · rw [pure_eq_ok] at h
    rw [h]

theorem SameVotes.history (h : t.SameVotes t') (rep : Address) : t'.history rep = t.history rep := by
  rw [IndexToken.history, IndexToken.history, h.checkpoints, h.numCheckpoints]

/-- What a transaction does: allowances and nonces apart, nothing, one transfer or one delegation. -/
theorem step_cases (h : step signing t tx = .ok t') :
    ∃ u : IndexToken, t.SameVotes u ∧
      (u = t' ∨ (∃ src dst amount, u.transferTokens tx.block src dst amount = .ok t') ∨
        ∃ delegator delegatee, u.delegateInternal tx.block delegator delegatee = .ok t') := by
  have hrefl : t.SameVotes t := ⟨rfl, rfl, rfl, rfl⟩
  cases hcall : tx.call with
  | approve sender spender rawAmount =>
    simp only [step, hcall, approve, bind_eq_ok, pure_eq_ok] at h
    obtain ⟨amount, _, rfl⟩ := h
    exact ⟨t.setAllowance sender spender amount, ⟨rfl, rfl, rfl, rfl⟩, .inl rfl⟩
  | transfer sender dst rawAmount =>
    simp only [step, hcall, transfer, bind_eq_ok] at h
    obtain ⟨amount, _, h⟩ := h
    exact ⟨t, hrefl, .inr (.inl ⟨_, _, _, h⟩)⟩
  | transferFrom sender src dst rawAmount =>
    simp only [step, hcall, transferFrom, bind_eq_ok] at h
    obtain ⟨amount, _, u, hspend, h⟩ := h
    exact ⟨u, spendAllowance_same hspend, .inr (.inl ⟨_, _, _, h⟩)⟩
  | delegate sender delegatee =>
    simp only [step, hcall] at h
    exact ⟨t, hrefl, .inr (.inr ⟨_, _, h⟩)⟩
  | delegateBySig delegatee nonce expiry v r s =>
    simp only [step, hcall, delegateBySig, bind_eq_ok, require_eq_ok, exists_const] at h
    obtain ⟨_, _, _, h⟩ := h
    refine ⟨_, ?_, .inr (.inr ⟨_, _, h⟩)⟩
    exact ⟨rfl, rfl, rfl, rfl⟩

theorem step_sound (h : t.Sound now) (hlater : now ≤ tx.block.number) (hpos : 0 < tx.block.number)
    (hstep : step signing t tx = .ok t') : t'.Sound tx.block.number := by
  obtain ⟨u, hsame, hu⟩ := step_cases hstep
  have hsound := h.of_same hsame
  rcases hu with rfl | ⟨src, dst, amount, ht⟩ | ⟨delegator, delegatee, ht⟩
  · exact ⟨hsound.supply, hsound.counts.later hlater⟩
  · exact transferTokens_sound hsound hlater hpos ht
  · exact delegateInternal_sound hsound hlater hpos ht

/-- What votes were before the block stays recorded. -/
theorem step_keeps (h : t.Sound now) (hlater : now ≤ tx.block.number) (hpos : 0 < tx.block.number)
    (hstep : step signing t tx = .ok t') (account : Address) {time : Nat}
    (htime : time < tx.block.number) :
    (t'.history account).valueAt 0 time = (t.history account).valueAt 0 time := by
  obtain ⟨u, hsame, hu⟩ := step_cases hstep
  have hsound := h.of_same hsame
  rw [← hsame.history]
  rcases hu with rfl | ⟨src, dst, amount, ht⟩ | ⟨delegator, delegatee, ht⟩
  · rfl
  · obtain ⟨_, _, _, _, rfl⟩ := (transferTokens_eq_ok hsound hlater hpos).mp ht
    exact valueAt_moved htime
  · obtain ⟨_, rfl⟩ := (delegateInternal_eq_ok hsound hlater hpos).mp ht
    exact valueAt_moved htime

theorem construct_sound (account : Address) : (construct account).Sound 0 := by
  refine ⟨?_, fun rep hrep => ?_, rfl, fun rep => History.UpTo.empty 0 rfl⟩
  · show ∑ a, Function.update (fun _ => 0) account totalSupply a = totalSupply
    rw [Finset.sum_update_of_mem (Finset.mem_univ account), Finset.sum_const_zero, Nat.add_zero]
  · symm
    refine Finset.sum_eq_zero fun a _ => ?_
    exact if_neg fun heq => hrep heq.symm

end Transactions

/-! ### Votes of earlier blocks -/

section Prior
variable {t : IndexToken} {account : Address} {now n blockNumber v : Nat}

/-- The binary search finds what a scan of the checkpoints does. -/
theorem getPriorVotes_eq_ok (h : (t.history account).UpTo n) :
    t.getPriorVotes now account blockNumber = .ok v ↔
      blockNumber < now ∧ (t.history account).valueAt 0 blockNumber = v := by
  simp only [getPriorVotes, bind_eq_ok, require_eq_ok, exists_const]
  refine and_congr_right fun _ => ?_
  split
  · next hnone => rw [pure_eq_ok, History.valueAt, show (t.history account).count = 0 from hnone]; rfl
  · next hsome =>
    have hlast : t.numCheckpoints account - 1 < (t.history account).count := by
      show _ < t.numCheckpoints account
      omega
    split
    · next hle =>
      have hvalue : (t.history account).valueAt 0 blockNumber = _ :=
        History.scan_eq hlast hle fun j hj hlt => by
          have : j < t.numCheckpoints account := hlt
          omega
      rw [pure_eq_ok, hvalue]
      rfl
    · split
      · next hfirst =>
        have hall : ∀ i < (t.history account).count, blockNumber <
            ((t.history account).checkpoint i).time := by
          intro i hi
          by_cases hzero : i = 0
          · exact hzero ▸ hfirst
          · exact lt_trans hfirst (h.increasing 0 i (Nat.pos_of_ne_zero hzero) hi)
        rw [pure_eq_ok, History.valueAt, History.scan_eq_default hall]
      · next hnot hfirst =>
        rw [pure_eq_ok]
        have hsearch : _ = (t.history account).valueAt 0 blockNumber :=
          History.search_eq h.increasing (Nat.zero_le _) hlast (Nat.le_of_not_lt hfirst)
            fun j hj hlt => by
              have : j < t.numCheckpoints account := hlt
              omega
        rw [← hsearch]
        rfl

end Prior

/-! ### Runs -/

/-! The deployer 1 delegates to 2 and sends a thousand to 3, which delegates to 4 two blocks later,
and then by signature to 2. -/

def exampleSigning : Signing where
  chainId := 1
  self := 50
  keccak256 := List.length
  ecrecover := fun _ v _ _ => BitVec.ofNat 160 v

def exampleTransactions : List Transaction :=
  [⟨⟨5, 60⟩, .delegate 1 2⟩, ⟨⟨5, 60⟩, .transfer 1 3 1000⟩, ⟨⟨7, 84⟩, .delegate 3 4⟩,
    ⟨⟨9, 108⟩, .delegateBySig 2 0 200 3 0 0⟩]

theorem exampleTransactions_inOrder : InOrder exampleTransactions := by
  refine ⟨?_, ?_⟩
  all_goals simp [exampleTransactions]

theorem exampleRun :
    ∃ t, runs (step exampleSigning) (construct 1) exampleTransactions = .ok t ∧
      t.getPriorVotes 10 4 8 = .ok 1000 ∧ t.getCurrentVotes 2 = totalSupply ∧
        t.balances 3 = 1000 := by
  have h : (fun t => (t.getPriorVotes 10 4 8, t.getCurrentVotes 2, t.balances 3)) <$>
      runs (step exampleSigning) (construct 1) exampleTransactions =
        .ok (.ok 1000, totalSupply, 1000) := by decide +kernel
  simp only [map_eq_ok, Prod.mk.injEq] at h
  exact h

section Runs
variable {signing : Signing} {deployer : Address} {txs : List Transaction}
  {t : IndexToken}

theorem runs_sound (horder : InOrder txs)
    (hr : runs (step signing) (construct deployer) txs = .ok t) :
    ∃ now, t.Sound now ∧ ∀ bound, (∀ tx ∈ txs, tx.block.number ≤ bound) → now ≤ bound := by
  obtain ⟨now, hsound, hbound⟩ := History.runs_timed (fun tx => tx.block.number) Sound
    (fun tx => 0 < tx.block.number)
    (fun s n tx u hs hn hpos hstep => step_sound hs hn hpos hstep) (construct_sound deployer)
    (fun tx htx => ⟨Nat.zero_le _, horder.2 tx htx⟩) horder.1 hr
  exact ⟨now, hsound, fun bound hall => hbound bound (Nat.zero_le _) hall⟩

/-- **Votes are delegated balances.** After any transactions, every delegate has as many votes as
the accounts that delegate to it hold, and the accounts together hold the supply. -/
theorem votes_eq_delegated (horder : InOrder txs)
    (hr : runs (step signing) (construct deployer) txs = .ok t) :
    ∑ a, t.balances a = totalSupply ∧ t.getCurrentVotes 0 = 0 ∧ ∀ rep, rep ≠ 0 →
      t.getCurrentVotes rep = ∑ a, if t.delegates a = rep then t.balances a else 0 := by
  obtain ⟨now, hsound, _⟩ := runs_sound horder hr
  refine ⟨hsound.supply, ?_, hsound.counts.votes⟩
  rw [getCurrentVotes, hsound.counts.nobody, if_neg (Nat.lt_irrefl 0)]

theorem votes_eq_delegated_example :
    ∃ t, runs (step exampleSigning) (construct 1) exampleTransactions = .ok t ∧
      (∑ a, if t.delegates a = 2 then t.balances a else 0) = totalSupply := by
  obtain ⟨t, ht, _, hvotes, _⟩ := exampleRun
  have heq := (votes_eq_delegated exampleTransactions_inOrder ht).2.2 2 (by decide)
  exact ⟨t, ht, heq.symm.trans hvotes⟩

/-- **Prior votes are the votes that were.** After any transactions, the votes of an account in an
earlier block are its current votes after the transactions up to that block. -/
theorem getPriorVotes_recalls (horder : InOrder txs)
    (hr : runs (step signing) (construct deployer) txs = .ok t) {now blockNumber : Nat}
    (hbefore : blockNumber < now) (account : Address) :
    ∃ s, runs (step signing) (construct deployer)
        (txs.takeWhile fun tx => tx.block.number ≤ blockNumber) = .ok s ∧
      t.getPriorVotes now account blockNumber = .ok (s.getCurrentVotes account) := by
  obtain ⟨n, hsound, _⟩ := runs_sound horder hr
  obtain ⟨s, hs, hvalue⟩ := History.recalled (fun t => t.history account)
    (fun tx => tx.block.number) Sound (fun tx => 0 < tx.block.number)
    (fun s n tx u hs hn hpos hstep => step_sound hs hn hpos hstep)
    (fun s n tx u hs hn hpos hstep htime => step_keeps hs hn hpos hstep account htime)
    (fun s n hs => hs.counts.recorded account) (construct_sound deployer) (Nat.zero_le _)
    (fun tx htx => ⟨Nat.zero_le _, horder.2 tx htx⟩) horder.1 hr
  exact ⟨s, hs, (getPriorVotes_eq_ok (hsound.counts.recorded account)).mpr ⟨hbefore, hvalue⟩⟩

/-- In the block 8 the account 4 had the votes that it no longer has. -/
theorem getPriorVotes_recalls_example :
    ∃ s, runs (step exampleSigning) (construct 1)
        (exampleTransactions.takeWhile fun tx => tx.block.number ≤ 8) = .ok s ∧
      s.getCurrentVotes 4 = 1000 := by
  obtain ⟨t, ht, hprior, _⟩ := exampleRun
  obtain ⟨s, hs, heq⟩ := getPriorVotes_recalls exampleTransactions_inOrder ht
    (show 8 < 10 by decide) 4
  exact ⟨s, hs, Except.ok.inj (heq.symm.trans hprior)⟩

/-! What stops a call. -/

theorem safe96_eq_ok {n m : Nat} {reason : String} :
    safe96 n reason = .ok m ↔ n < 2 ^ 96 ∧ n = m := by
  simp only [safe96, bind_eq_ok, require_eq_ok, pure_eq_ok, exists_const]

theorem spendAllowance_returns_iff {spender src : Address} {amount : Nat} :
    (∃ u, t.spendAllowance spender src amount = .ok u) ↔
      spender = src ∨ t.allowances src spender = 2 ^ 96 - 1 ∨
        amount ≤ t.allowances src spender := by
  unfold spendAllowance
  by_cases hspends : spender ≠ src ∧ t.allowances src spender ≠ 2 ^ 96 - 1
  · simp only [if_pos hspends, bind_eq_ok, sub96_eq_ok, pure_eq_ok]
    constructor
    · rintro ⟨_, _, ⟨hle, _⟩, _⟩
      exact .inr (.inr hle)
    · rintro (heq | hmax | hle)
      · exact absurd heq hspends.1
      · exact absurd hmax hspends.2
      · exact ⟨_, _, ⟨hle, rfl⟩, rfl⟩
  · simp only [if_neg hspends, pure_eq_ok, exists_eq', true_iff]
    rcases not_and_or.mp hspends with heq | hmax
    · exact .inl (not_not.mp heq)
    · exact .inr (.inl (not_not.mp hmax))

/-- **Counting votes stops nothing.** After any transactions, a transfer returns exactly if both
accounts are somebody and the sender holds the amount, a transfer for another if the allowance
covers it as well, and a delegation always, as long as the number of the block is a `uint32` where
votes move. -/
theorem calls_return_iff (horder : InOrder txs)
    (hr : runs (step signing) (construct deployer) txs = .ok t) (block : Block)
    (hblock : 0 < block.number) (hlater : ∀ tx ∈ txs, tx.block.number ≤ block.number)
    (spender src dst delegatee : Address) (rawAmount : Nat) :
    ((∃ u, t.transfer block src dst rawAmount = .ok u) ↔
      src ≠ 0 ∧ dst ≠ 0 ∧ rawAmount ≤ t.balances src ∧
        (t.delegates src ≠ t.delegates dst ∧ 0 < rawAmount → block.number < 2 ^ 32)) ∧
    ((∃ u, t.transferFrom block spender src dst rawAmount = .ok u) ↔
      (spender = src ∨ t.allowances src spender = 2 ^ 96 - 1 ∨
        rawAmount ≤ t.allowances src spender) ∧
      src ≠ 0 ∧ dst ≠ 0 ∧ rawAmount ≤ t.balances src ∧
        (t.delegates src ≠ t.delegates dst ∧ 0 < rawAmount → block.number < 2 ^ 32)) ∧
    ((∃ u, t.delegate block src delegatee = .ok u) ↔
      (t.delegates src ≠ delegatee ∧ 0 < t.balances src → block.number < 2 ^ 32)) := by
  obtain ⟨now, hsound, hbound⟩ := runs_sound horder hr
  have hnow : now ≤ block.number := hbound _ hlater
  have hfits (h : rawAmount ≤ t.balances src) : rawAmount < 2 ^ 96 :=
    (h.trans (balance_le_weight src)).trans_lt (hsound.weight_lt _)
  refine ⟨?_, ?_, ?_⟩
  · simp only [transfer, bind_eq_ok, safe96_eq_ok]
    constructor
    · rintro ⟨u, _, ⟨_, rfl⟩, hu⟩
      obtain ⟨hsrc, hdst, hle, hfew, _⟩ := (transferTokens_eq_ok hsound hnow hblock).mp hu
      exact ⟨hsrc, hdst, hle, hfew⟩
    · rintro ⟨hsrc, hdst, hle, hfew⟩
      exact ⟨_, _, ⟨hfits hle, rfl⟩,
        (transferTokens_eq_ok hsound hnow hblock).mpr ⟨hsrc, hdst, hle, hfew, rfl⟩⟩
  · simp only [transferFrom, bind_eq_ok, safe96_eq_ok]
    constructor
    · rintro ⟨u, _, ⟨_, rfl⟩, v, hv, hu⟩
      have hsame := spendAllowance_same hv
      obtain ⟨hsrc, hdst, hle, hfew, _⟩ :=
        (transferTokens_eq_ok (hsound.of_same hsame) hnow hblock).mp hu
      rw [hsame.balances] at hle
      rw [hsame.delegates] at hfew
      exact ⟨spendAllowance_returns_iff.mp ⟨v, hv⟩, hsrc, hdst, hle, hfew⟩
    · rintro ⟨hallowed, hsrc, hdst, hle, hfew⟩
      obtain ⟨v, hv⟩ := spendAllowance_returns_iff.mpr hallowed
      have hsame := spendAllowance_same hv
      rw [← hsame.delegates] at hfew
      exact ⟨_, _, ⟨hfits hle, rfl⟩, v, hv,
        (transferTokens_eq_ok (hsound.of_same hsame) hnow hblock).mpr
          ⟨hsrc, hdst, hsame.balances ▸ hle, hfew, rfl⟩⟩
  · constructor
    · rintro ⟨u, hu⟩
      exact ((delegateInternal_eq_ok hsound hnow hblock).mp hu).1
    · intro hfew
      exact ⟨_, (delegateInternal_eq_ok hsound hnow hblock).mpr ⟨hfew, rfl⟩⟩

theorem calls_return_iff_example :
    ∃ t, runs (step exampleSigning) (construct 1) exampleTransactions = .ok t ∧
      ∃ u, t.transfer ⟨9, 108⟩ 3 1 1000 = .ok u := by
  obtain ⟨t, ht, _, _, hbalance⟩ := exampleRun
  refine ⟨t, ht, ?_⟩
  have hlater : ∀ tx ∈ exampleTransactions, tx.block.number ≤ 9 := by simp [exampleTransactions]
  exact (calls_return_iff exampleTransactions_inOrder ht ⟨9, 108⟩ (by decide)
    hlater 3 3 1 0 1000).1.mpr ⟨by decide, by decide, hbalance.ge, fun _ => by decide⟩

/-! ### Signed delegations -/

/-- The nonce of a delegation that an account signed. -/
def signedNonce (signing : Signing) (signatory : Address) (tx : Transaction) : Option Nat :=
  match tx.call with
  | .delegateBySig delegatee nonce expiry v r s =>
    if signing.ecrecover (delegationDigest signing delegatee nonce expiry) v r s = signatory
    then some nonce else none
  | _ => none

theorem writeCheckpoint_nonces {u : IndexToken} {now n votes : Nat} {rep : Address}
    (h : t.writeCheckpoint now rep n votes = .ok u) : u.nonces = t.nonces := by
  simp only [writeCheckpoint, bind_eq_ok] at h
  obtain ⟨_, _, h⟩ := h
  split at h
  all_goals
    rw [pure_eq_ok] at h
    subst h
    rfl

theorem takeVotes_nonces {u : IndexToken} {now amount : Nat} {srcRep : Address}
    (h : t.takeVotes now srcRep amount = .ok u) : u.nonces = t.nonces := by
  unfold takeVotes at h
  split at h
  · simp only [bind_eq_ok] at h
    obtain ⟨_, _, h⟩ := h
    exact writeCheckpoint_nonces h
  · rw [pure_eq_ok] at h
    rw [h]

theorem addVotes_nonces {u : IndexToken} {now amount : Nat} {dstRep : Address}
    (h : t.addVotes now dstRep amount = .ok u) : u.nonces = t.nonces := by
  unfold addVotes at h
  split at h
  · simp only [bind_eq_ok] at h
    obtain ⟨_, _, h⟩ := h
    exact writeCheckpoint_nonces h
  · rw [pure_eq_ok] at h
    rw [h]

theorem moveDelegates_nonces {u : IndexToken} {now amount : Nat} {srcRep dstRep : Address}
    (h : t.moveDelegates now srcRep dstRep amount = .ok u) : u.nonces = t.nonces := by
  unfold moveDelegates at h
  split at h
  · simp only [bind_eq_ok] at h
    obtain ⟨w, hw, h⟩ := h
    rw [addVotes_nonces h, takeVotes_nonces hw]
  · rw [pure_eq_ok] at h
    rw [h]

theorem transferTokens_nonces {u : IndexToken} {block : Block} {src dst : Address} {amount : Nat}
    (h : t.transferTokens block src dst amount = .ok u) : u.nonces = t.nonces := by
  simp only [transferTokens, bind_eq_ok] at h
  obtain ⟨_, _, _, _, _, _, _, _, h⟩ := h
  exact (moveDelegates_nonces h).trans rfl

/-- A signed delegation is made with the signatory's nonce, and uses it up. -/
theorem step_nonces {u : IndexToken} {tx : Transaction} (h : step signing t tx = .ok u)
    (signatory : Address) :
    (signedNonce signing signatory tx = none ∧ u.nonces signatory = t.nonces signatory) ∨
      (signedNonce signing signatory tx = some (t.nonces signatory) ∧
        u.nonces signatory = (t.nonces signatory + 1) % uintBound) := by
  cases hcall : tx.call with
  | approve sender spender rawAmount =>
    simp only [step, hcall, approve, bind_eq_ok, pure_eq_ok] at h
    obtain ⟨_, _, rfl⟩ := h
    exact .inl ⟨by rw [signedNonce, hcall], rfl⟩
  | transfer sender dst rawAmount =>
    simp only [step, hcall, transfer, bind_eq_ok] at h
    obtain ⟨_, _, h⟩ := h
    exact .inl ⟨by rw [signedNonce, hcall], congrFun (transferTokens_nonces h) signatory⟩
  | transferFrom sender src dst rawAmount =>
    simp only [step, hcall, transferFrom, bind_eq_ok] at h
    obtain ⟨_, _, w, hspend, h⟩ := h
    refine .inl ⟨by rw [signedNonce, hcall], ?_⟩
    rw [transferTokens_nonces h, spendAllowance_nonces hspend]
  | delegate sender delegatee =>
    simp only [step, hcall] at h
    exact .inl ⟨by rw [signedNonce, hcall], congrFun (moveDelegates_nonces h) signatory⟩
  | delegateBySig delegatee nonce expiry v r s =>
    simp only [step, hcall, delegateBySig, bind_eq_ok, require_eq_ok, exists_const] at h
    obtain ⟨_, hnonce, _, h⟩ := h
    have hnonces := moveDelegates_nonces h
    dsimp only at hnonces
    by_cases hsigned : signing.ecrecover (delegationDigest signing delegatee nonce expiry) v r s =
        signatory
    · rw [hsigned] at hnonce hnonces
      refine .inr ⟨?_, ?_⟩
      · rw [← hnonce]
        simp only [signedNonce, hcall, if_pos hsigned]
      · rw [hnonces, Function.update_self]
    · refine .inl ⟨?_, ?_⟩
      · simp only [signedNonce, hcall, if_neg hsigned]
      · rw [hnonces, Function.update_of_ne (Ne.symm hsigned)]

/-- The nonces of an account's signed delegations follow each other. -/
theorem runs_nonces {u : IndexToken} {signatory : Address} {k : Nat}
    (hk : t.nonces signatory = k % uintBound) (hr : runs (step signing) t txs = .ok u) :
    txs.filterMap (signedNonce signing signatory) =
      (List.range' k (txs.filterMap (signedNonce signing signatory)).length).map
        (· % uintBound) := by
  induction txs generalizing t k with
  | nil => rfl
  | cons tx rest ih =>
    obtain ⟨w, hw, hrest⟩ := (runs_cons_eq_ok _).mp hr
    rcases step_nonces hw signatory with ⟨hnone, hsame⟩ | ⟨hsome, hnext⟩
    · rw [List.filterMap_cons_none hnone]
      exact ih (hsame.trans hk) hrest
    · rw [List.filterMap_cons_some hsome, List.length_cons, List.range'_succ, List.map_cons, hk]
      congr 1
      refine ih ?_ hrest
      rw [hnext, hk, Nat.mod_add_mod]

/-- **A signed delegation counts once.** In a run of fewer transactions than there are nonces, the
delegations that an account signed carry the nonces from zero on, each of them once. -/
theorem signed_delegations_once (hr : runs (step signing) (construct deployer) txs = .ok t)
    (hfew : txs.length ≤ uintBound) (signatory : Address) :
    ∃ k, txs.filterMap (signedNonce signing signatory) = List.range k := by
  refine ⟨(txs.filterMap (signedNonce signing signatory)).length, ?_⟩
  have hfirst : (construct deployer).nonces signatory = 0 % uintBound := rfl
  have hnonces := runs_nonces hfirst hr
  rw [List.range_eq_range']
  refine hnonces.trans ?_
  refine (List.map_congr_left fun n hn => ?_).trans (List.map_id _)
  have hlt := List.mem_range'_1.mp hn
  have hlength := List.length_filterMap_le (signedNonce signing signatory) txs
  exact Nat.mod_eq_of_lt (by omega)

theorem signed_delegations_once_example :
    ∃ k, exampleTransactions.filterMap (signedNonce exampleSigning 3) = List.range k := by
  obtain ⟨t, ht, _⟩ := exampleRun
  exact signed_delegations_once ht (by decide) 3

end Runs

end IndexProtocol.IndexToken
