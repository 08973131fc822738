import IndexProtocol.Manager.Upgrades
import IndexProtocol.PreciseUnitMath

/-! The DelegatedManager's fee split, which the owner and the methodologist change together.

`updateOwnerFeeSplit` is a mutual upgrade: one of the two registers a call and
the other carries it out. A recorded run keeps the calls made so far, and which
registrations are left over: those that stood after the fee split was last
written with the same argument, and were not made anew since. -/
namespace IndexProtocol
open Evm PreciseUnitMath

structure DelegatedManager.Calldata where
  newFeeSplit : Nat
  /-- Bytes after the arguments, which the decoder ignores and the hash does not. -/
  trailing : List UInt8
  deriving DecidableEq, Repr

structure DelegatedManager where
  owner : Address
  methodologist : Address
  ownerFeeSplit : Nat
  ownerFeeRecipient : Address
  mutualUpgrades : Registrations DelegatedManager.Calldata

namespace DelegatedManager

def construct (owner methodologist : Address) : DelegatedManager where
  owner := owner
  methodologist := methodologist
  ownerFeeSplit := 0
  ownerFeeRecipient := 0
  mutualUpgrades := fun _ => false

/-- The registrations of a manager, beside the fee splits that its events report. -/
def mutualUpgradesSlot : Slot (DelegatedManager × List Nat) (Registrations Calldata) where
  read s := s.1.mutualUpgrades
  write s registered := ({ s.1 with mutualUpgrades := registered }, s.2)

/-- The body, with the event `OwnerFeeSplitUpdated`. -/
def writeOwnerFeeSplit (newFeeSplit : Nat) (s : DelegatedManager × List Nat) :
    Result (DelegatedManager × List Nat) := do
  require (newFeeSplit ≤ preciseUnit) "Invalid fee split"
  pure ({ s.1 with ownerFeeSplit := newFeeSplit }, s.2 ++ [newFeeSplit])

variable (m : DelegatedManager) (sender : Address)

/-- Also returns the events, one for each time that the body ran. -/
def updateOwnerFeeSplit (data : Calldata) : Result (DelegatedManager × List Nat) :=
  MutualUpgradeV2.mutualUpgrade mutualUpgradesSlot (m, []) m.owner m.methodologist sender data
    (writeOwnerFeeSplit data.newFeeSplit)

def updateOwnerFeeRecipient (newFeeRecipient : Address) : Result DelegatedManager := do
  Ownable.onlyOwner m.owner sender
  require (newFeeRecipient ≠ 0) "Null address passed"
  pure { m with ownerFeeRecipient := newFeeRecipient }

def setMethodologist (newMethodologist : Address) : Result DelegatedManager := do
  require (sender = m.methodologist) "Must be methodologist"
  require (newMethodologist ≠ 0) "Null address passed"
  pure { m with methodologist := newMethodologist }

def transferOwnership (newOwner : Address) : Result DelegatedManager := do
  let owner ← Ownable.transferOwnership m.owner sender newOwner
  pure { m with owner := owner }

def renounceOwnership : Result DelegatedManager := do
  let owner ← Ownable.renounceOwnership m.owner sender
  pure { m with owner := owner }

/-! ### What one call does -/

/-- The other of the two signers. -/
def other : Address := MutualUpgrade.getNonCaller m.owner m.methodologist sender

def register (key : Calldata × Address) (registered : Bool) : DelegatedManager :=
  { m with mutualUpgrades := Function.update m.mutualUpgrades key registered }

variable {m : DelegatedManager} {sender : Address} {data : Calldata} {v : DelegatedManager}
  {events : List Nat}

theorem updateOwnerFeeSplit_signer (h : m.updateOwnerFeeSplit sender data = .ok (v, events)) :
    sender = m.owner ∨ sender = m.methodologist := by
  simp only [updateOwnerFeeSplit, MutualUpgradeV2.mutualUpgrade, bind_eq_ok, require_eq_ok] at h
  obtain ⟨_, hsigner, _⟩ := h
  exact hsigner

theorem other_signer (m : DelegatedManager) (sender : Address) :
    m.other sender = m.owner ∨ m.other sender = m.methodologist := by
  unfold other MutualUpgrade.getNonCaller
  split
  · exact .inr rfl
  · exact .inl rfl

theorem other_ne (hapart : m.owner ≠ m.methodologist)
    (hsender : sender = m.owner ∨ sender = m.methodologist) : m.other sender ≠ sender := by
  unfold other MutualUpgrade.getNonCaller
  cases hsender with
  | inl howner =>
    rw [if_pos howner, howner]
    exact hapart.symm
  | inr hmethodologist =>
    rw [if_neg (fun howner => hapart (howner.symm.trans hmethodologist)), hmethodologist]
    exact hapart

/-- A signer is the sender or the other. -/
theorem eq_other {party : Address} (hsender : sender = m.owner ∨ sender = m.methodologist)
    (hparty : party = m.owner ∨ party = m.methodologist) (hne : party ≠ sender) :
    party = m.other sender := by
  unfold other MutualUpgrade.getNonCaller
  by_cases howner : sender = m.owner
  · rw [if_pos howner]
    exact hparty.resolve_left fun h => hne (h.trans howner.symm)
  · rw [if_neg howner]
    exact hparty.resolve_right fun h => hne (h.trans (hsender.resolve_left howner).symm)

/-- The registration of the other signer is used up and the body runs, or the sender's is made. -/
theorem useOrRegister_cases {log : List Nat} {newFeeSplit : Nat}
    (h : MutualUpgrade.useOrRegister mutualUpgradesSlot (m, log) m.owner m.methodologist sender data
      (writeOwnerFeeSplit newFeeSplit) = .ok (v, events)) :
    m.mutualUpgrades (data, m.other sender) = false ∧ v = m.register (data, sender) true ∧
        events = log ∨
      m.mutualUpgrades (data, m.other sender) = true ∧
        v = { m.register (data, m.other sender) false with ownerFeeSplit := newFeeSplit } ∧
        events = log ++ [newFeeSplit] := by
  cases MutualUpgrade.useOrRegister_cases h with
  | inl hmade =>
    obtain ⟨hregistered, hmade⟩ := hmade
    obtain ⟨hv, hevents⟩ := Prod.mk.inj hmade
    exact .inl ⟨hregistered, hv.symm, hevents.symm⟩
  | inr hused =>
    obtain ⟨hregistered, hrun⟩ := hused
    simp only [writeOwnerFeeSplit, bind_eq_ok, pure_eq_ok, Prod.mk.injEq] at hrun
    obtain ⟨_, _, hv, hevents⟩ := hrun
    exact .inr ⟨hregistered, hv.symm, hevents.symm⟩

/-- Two signers: one registers, and the other's call runs the body. -/
theorem updateOwnerFeeSplit_apart (hapart : m.owner ≠ m.methodologist)
    (h : m.updateOwnerFeeSplit sender data = .ok (v, events)) :
    m.mutualUpgrades (data, m.other sender) = false ∧ v = m.register (data, sender) true ∧
        events = [] ∨
      m.mutualUpgrades (data, m.other sender) = true ∧
        v = { m.register (data, m.other sender) false with ownerFeeSplit := data.newFeeSplit } ∧
        events = [data.newFeeSplit] := by
  simp only [updateOwnerFeeSplit, MutualUpgradeV2.mutualUpgrade, bind_eq_ok, if_neg hapart,
    pure_eq_ok] at h
  obtain ⟨_, _, _, rfl, h⟩ := h
  exact useOrRegister_cases h

/-- One signer: the body runs, and runs again where the signer's registration stands. -/
theorem updateOwnerFeeSplit_alone (halone : m.owner = m.methodologist)
    (h : m.updateOwnerFeeSplit sender data = .ok (v, events)) :
    m.other sender = sender ∧
      (m.mutualUpgrades (data, sender) = false ∧
          v = { m.register (data, sender) true with ownerFeeSplit := data.newFeeSplit } ∧
          events = [data.newFeeSplit] ∨
        m.mutualUpgrades (data, sender) = true ∧
          v = { m.register (data, sender) false with ownerFeeSplit := data.newFeeSplit } ∧
          events = [data.newFeeSplit, data.newFeeSplit]) := by
  simp only [updateOwnerFeeSplit, MutualUpgradeV2.mutualUpgrade, bind_eq_ok, require_eq_ok,
    if_pos halone] at h
  obtain ⟨_, hsigner, s, hbody, h⟩ := h
  have howner : sender = m.owner := hsigner.elim id fun h => h.trans halone.symm
  have hother : m.other sender = sender := by
    unfold other MutualUpgrade.getNonCaller
    rw [if_pos howner, ← halone, howner]
  refine ⟨hother, ?_⟩
  simp only [writeOwnerFeeSplit, bind_eq_ok, pure_eq_ok] at hbody
  obtain ⟨_, _, rfl⟩ := hbody
  cases useOrRegister_cases (m := { m with ownerFeeSplit := data.newFeeSplit }) h with
  | inl h =>
    obtain ⟨hregistered, hv, hevents⟩ := h
    exact .inl ⟨hother ▸ hregistered, hv, hevents⟩
  | inr h =>
    obtain ⟨hregistered, hv, hevents⟩ := h
    have hsame : other { m with ownerFeeSplit := data.newFeeSplit } sender = sender := hother
    rw [hsame] at hregistered hv
    exact .inr ⟨hregistered, hv, hevents⟩

/-! ### Runs -/

inductive Action where
  | updateOwnerFeeSplit (sender : Address) (data : Calldata)
  | updateOwnerFeeRecipient (sender newFeeRecipient : Address)
  | setMethodologist (sender newMethodologist : Address)
  | transferOwnership (sender newOwner : Address)
  | renounceOwnership (sender : Address)

/-- A call of `updateOwnerFeeSplit`, the signers it found, and how often it ran the body. -/
structure Call where
  sender : Address
  data : Calldata
  owner : Address
  methodologist : Address
  executions : Nat
  deriving DecidableEq, Repr

/-- The party has called for this fee split since it was last written. The latest call is first. -/
def calledSince (party : Address) (newFeeSplit : Nat) : List Call → Bool
  | [] => false
  | c :: earlier =>
    if c.data.newFeeSplit = newFeeSplit then
      if c.executions = 0 then decide (c.sender = party) || calledSince party newFeeSplit earlier
      else false
    else calledSince party newFeeSplit earlier

/-- The call ran the body at most once, and with two signers only where both have called. -/
def Call.Agreed (c : Call) (earlier : List Call) : Prop :=
  c.executions ≤ 1 ∧
    (c.owner ≠ c.methodologist → 0 < c.executions →
      ∀ party, party = c.owner ∨ party = c.methodologist →
        party = c.sender ∨ calledSince party c.data.newFeeSplit earlier = true)

/-- All calls were agreed. -/
def AllAgreed : List Call → Prop
  | [] => True
  | c :: earlier => c.Agreed earlier ∧ AllAgreed earlier

/-- A state of a run, with the calls that led to it and the registrations that are left over. -/
structure Recorded where
  manager : DelegatedManager
  calls : List Call
  leftover : Calldata × Address → Bool

/-- What is left over after a call: where the body ran, every registration that stands for its
argument; where it did not, the sender's is new. -/
def leave (r : Recorded) (v : DelegatedManager) (sender : Address) (data : Calldata)
    (events : List Nat) : Calldata × Address → Bool :=
  if events = [] then Function.update r.leftover (data, sender) false
  else fun key =>
    if key.1.newFeeSplit = data.newFeeSplit then v.mutualUpgrades key else r.leftover key

def record (r : Recorded) : Action → Result Recorded
  | .updateOwnerFeeSplit sender data => do
    let (m, events) ← r.manager.updateOwnerFeeSplit sender data
    let c : Call := ⟨sender, data, r.manager.owner, r.manager.methodologist, events.length⟩
    pure ⟨m, c :: r.calls, leave r m sender data events⟩
  | .updateOwnerFeeRecipient sender newFeeRecipient => do
    let m ← r.manager.updateOwnerFeeRecipient sender newFeeRecipient
    pure { r with manager := m }
  | .setMethodologist sender newMethodologist => do
    let m ← r.manager.setMethodologist sender newMethodologist
    pure { r with manager := m }
  | .transferOwnership sender newOwner => do
    let m ← r.manager.transferOwnership sender newOwner
    pure { r with manager := m }
  | .renounceOwnership sender => do
    let m ← r.manager.renounceOwnership sender
    pure { r with manager := m }

/-- A registration of the fee split by the party that is not left over. -/
def Recorded.Fresh (r : Recorded) (party : Address) (newFeeSplit : Nat) : Prop :=
  ∃ data : Calldata, data.newFeeSplit = newFeeSplit ∧
    r.manager.mutualUpgrades (data, party) = true ∧ r.leftover (data, party) = false

/-- A call that finds the other signer's registration finds two signers, and a registration of the
other that is not left over. -/
def Mutual (r : Recorded) : Action → Prop
  | .updateOwnerFeeSplit sender data =>
    r.manager.mutualUpgrades (data, r.manager.other sender) = true →
      r.manager.owner ≠ r.manager.methodologist ∧
        r.Fresh (r.manager.other sender) data.newFeeSplit
  | _ => True

/-- The storage knows who has called. -/
def Remembers (r : Recorded) : Prop :=
  ∀ party newFeeSplit, calledSince party newFeeSplit r.calls = true ↔ r.Fresh party newFeeSplit

variable {r t : Recorded} {c : Call} {newFeeSplit : Nat} {party : Address}

theorem calledSince_registering (hnone : c.executions = 0) :
    calledSince party newFeeSplit (c :: r.calls) = true ↔
      c.data.newFeeSplit = newFeeSplit ∧ c.sender = party ∨
        calledSince party newFeeSplit r.calls = true := by
  rw [calledSince]
  by_cases hsame : c.data.newFeeSplit = newFeeSplit
  · rw [if_pos hsame, if_pos hnone]
    simp [hsame]
  · rw [if_neg hsame]
    simp [hsame]

theorem calledSince_executing (hran : c.executions ≠ 0) :
    calledSince party newFeeSplit (c :: r.calls) = true ↔
      c.data.newFeeSplit ≠ newFeeSplit ∧ calledSince party newFeeSplit r.calls = true := by
  rw [calledSince]
  by_cases hsame : c.data.newFeeSplit = newFeeSplit
  · rw [if_pos hsame, if_neg hran]
    simp [hsame]
  · rw [if_neg hsame]
    simp [hsame]

/-- A call that only registers is remembered by its registration. -/
theorem Remembers.register (h : Remembers r) (hv : v = r.manager.register (data, sender) true)
    (hnone : c.executions = 0) (hdata : c.data = data) (hsender : c.sender = sender) :
    Remembers ⟨v, c :: r.calls, leave r v sender data []⟩ := by
  intro party newFeeSplit
  show calledSince party newFeeSplit (c :: r.calls) = true ↔ _
  rw [calledSince_registering hnone, h party newFeeSplit, hdata, hsender, hv]
  show _ ↔ ∃ d : Calldata, d.newFeeSplit = newFeeSplit ∧
    Function.update r.manager.mutualUpgrades (data, sender) true (d, party) = true ∧
    Function.update r.leftover (data, sender) false (d, party) = false
  constructor
  · intro hcalled
    cases hcalled with
    | inl hnow =>
      obtain ⟨hsame, rfl⟩ := hnow
      exact ⟨data, hsame, Function.update_self .., Function.update_self ..⟩
    | inr hbefore =>
      obtain ⟨d, hd, hregistered, hfresh⟩ := hbefore
      refine ⟨d, hd, ?_, ?_⟩
      · rw [Function.update_apply]
        split
        · rfl
        · exact hregistered
      · rw [Function.update_apply]
        split
        · rfl
        · exact hfresh
  · rintro ⟨d, hd, hregistered, hfresh⟩
    by_cases hkey : (d, party) = (data, sender)
    · obtain ⟨rfl, rfl⟩ := Prod.mk.inj hkey
      exact .inl ⟨hd, rfl⟩
    · rw [Function.update_of_ne hkey] at hregistered hfresh
      exact .inr ⟨d, hd, hregistered, hfresh⟩

/-- After the body ran nothing is fresh for its argument, and nothing else changed. -/
theorem Remembers.execute (h : Remembers r) (hne : events ≠ [])
    (hoff : ∀ key : Calldata × Address, key.1.newFeeSplit ≠ data.newFeeSplit →
      v.mutualUpgrades key = r.manager.mutualUpgrades key)
    (hran : c.executions ≠ 0) (hdata : c.data = data) :
    Remembers ⟨v, c :: r.calls, leave r v sender data events⟩ := by
  intro party newFeeSplit
  show calledSince party newFeeSplit (c :: r.calls) = true ↔ _
  rw [calledSince_executing hran, h party newFeeSplit, hdata]
  show _ ↔ ∃ d : Calldata, d.newFeeSplit = newFeeSplit ∧ v.mutualUpgrades (d, party) = true ∧
    leave r v sender data events (d, party) = false
  unfold leave
  rw [if_neg hne]
  constructor
  · rintro ⟨hother, d, hd, hregistered, hfresh⟩
    have hd' : d.newFeeSplit ≠ data.newFeeSplit := fun hsame => hother (hsame.symm.trans hd)
    refine ⟨d, hd, (hoff (d, party) hd').trans hregistered, ?_⟩
    rw [if_neg hd']
    exact hfresh
  · rintro ⟨d, hd, hregistered, hfresh⟩
    by_cases hsame : d.newFeeSplit = data.newFeeSplit
    · rw [if_pos hsame, hregistered] at hfresh
      cases hfresh
    · rw [if_neg hsame] at hfresh
      exact ⟨fun hother => hsame (hd.trans hother.symm), d, hd,
        (hoff (d, party) hsame).symm.trans hregistered, hfresh⟩

theorem register_of_ne {party : Address} {registered : Bool} {x : Nat} {key : Calldata × Address}
    (hkey : key.1.newFeeSplit ≠ data.newFeeSplit) :
    ({ m.register (data, party) registered with ownerFeeSplit := x } :
      DelegatedManager).mutualUpgrades key = m.mutualUpgrades key := by
  refine Function.update_of_ne (fun hsame => hkey ?_) _ _
  rw [hsame]

/-- Roles change, and what was registered stays. -/
theorem Remembers.of_same (h : Remembers r) (hv : v.mutualUpgrades = r.manager.mutualUpgrades) :
    Remembers { r with manager := v } := by
  intro party newFeeSplit
  rw [h party newFeeSplit]
  unfold Recorded.Fresh
  rw [hv]

/-- A call is remembered, and agreed exactly if it is mutual. -/
theorem record_spec {a : Action} (h : Remembers r) (ht : record r a = .ok t) :
    Remembers t ∧ (AllAgreed t.calls ↔ AllAgreed r.calls ∧ Mutual r a) := by
  cases a with
  | updateOwnerFeeSplit sender data =>
    simp only [record, bind_eq_ok, pure_eq_ok] at ht
    obtain ⟨⟨v, events⟩, hcall, rfl⟩ := ht
    by_cases halone : r.manager.owner = r.manager.methodologist
    · obtain ⟨hother, hran⟩ := updateOwnerFeeSplit_alone halone hcall
      have hmutual : Mutual r (.updateOwnerFeeSplit sender data) ↔
          r.manager.mutualUpgrades (data, sender) = false := by
        show (r.manager.mutualUpgrades (data, r.manager.other sender) = true → _ ≠ _ ∧ _) ↔ _
        rw [hother]
        simp [halone]
      rw [hmutual]
      cases hran with
      | inl hran =>
        obtain ⟨hregistered, rfl, rfl⟩ := hran
        refine ⟨h.execute (List.cons_ne_nil _ _) (fun _ => register_of_ne) Nat.one_ne_zero rfl, ?_⟩
        rw [and_comm]
        refine and_congr (iff_of_true ⟨Nat.le_refl 1, fun hapart => absurd halone hapart⟩ ?_) Iff.rfl
        exact hregistered
      | inr hran =>
        obtain ⟨hregistered, rfl, rfl⟩ := hran
        refine ⟨h.execute (List.cons_ne_nil _ _) (fun _ => register_of_ne) (Nat.succ_ne_zero 1) rfl, ?_⟩
        refine iff_of_false (fun hall => absurd hall.1.1 (Nat.not_succ_le_self 1)) fun hall => ?_
        rw [hregistered] at hall
        cases hall.2
    · cases updateOwnerFeeSplit_apart halone hcall with
      | inl hregistering =>
        obtain ⟨hnone, hv, rfl⟩ := hregistering
        refine ⟨h.register hv rfl rfl rfl, and_comm.trans (and_congr Iff.rfl ?_)⟩
        refine iff_of_true ⟨Nat.zero_le 1, fun _ hran => absurd hran (Nat.lt_irrefl 0)⟩ ?_
        intro hregistered
        rw [hnone] at hregistered
        cases hregistered
      | inr hexecuting =>
        obtain ⟨hregistered, rfl, rfl⟩ := hexecuting
        refine ⟨h.execute (List.cons_ne_nil _ _) (fun _ => register_of_ne) Nat.one_ne_zero rfl, ?_⟩
        refine and_comm.trans (and_congr Iff.rfl ?_)
        constructor
        · intro hagreed _
          refine ⟨halone, (h _ _).mp ?_⟩
          have hsigner := other_signer r.manager sender
          exact (hagreed.2 halone Nat.one_pos _ hsigner).resolve_left
            (other_ne halone (updateOwnerFeeSplit_signer hcall))
        · intro hmutual
          refine ⟨Nat.le_refl 1, fun _ _ party hparty => ?_⟩
          by_cases hsender : party = sender
          · exact .inl hsender
          · refine .inr ((h _ _).mpr ?_)
            rw [eq_other (updateOwnerFeeSplit_signer hcall) hparty hsender]
            exact (hmutual hregistered).2
  | updateOwnerFeeRecipient sender newFeeRecipient =>
    simp only [record, updateOwnerFeeRecipient, bind_eq_ok, pure_eq_ok] at ht
    obtain ⟨_, ⟨_, _, _, _, rfl⟩, rfl⟩ := ht
    exact ⟨h.of_same rfl, (and_iff_left trivial).symm⟩
  | setMethodologist sender newMethodologist =>
    simp only [record, setMethodologist, bind_eq_ok, pure_eq_ok] at ht
    obtain ⟨_, ⟨_, _, _, _, rfl⟩, rfl⟩ := ht
    exact ⟨h.of_same rfl, (and_iff_left trivial).symm⟩
  | transferOwnership sender newOwner =>
    simp only [record, transferOwnership, bind_eq_ok, pure_eq_ok] at ht
    obtain ⟨_, ⟨_, _, rfl⟩, rfl⟩ := ht
    exact ⟨h.of_same rfl, (and_iff_left trivial).symm⟩
  | renounceOwnership sender =>
    simp only [record, renounceOwnership, bind_eq_ok, pure_eq_ok] at ht
    obtain ⟨_, ⟨_, _, rfl⟩, rfl⟩ := ht
    exact ⟨h.of_same rfl, (and_iff_left trivial).symm⟩

/-- **Fresh agreement.** In a run from the construction, every call of `updateOwnerFeeSplit` runs
the body at most once, and with two signers only where both have called since it last ran, exactly
if no call uses up a registration that is left over, and none finds the registration of a signer
who is alone. -/
theorem allAgreed_iff {owner methodologist : Address} {actions : List Action} {r : Recorded}
    (hr : runs record ⟨construct owner methodologist, [], fun _ => false⟩ actions = .ok r) :
    AllAgreed r.calls ↔
      Along record Mutual ⟨construct owner methodologist, [], fun _ => false⟩ actions := by
  suffices ∀ s : Recorded, Remembers s → runs record s actions = .ok r →
      (AllAgreed r.calls ↔ AllAgreed s.calls ∧ Along record Mutual s actions) by
    refine (this _ (fun party x => ?_) hr).trans (and_iff_right trivial)
    refine iff_of_false Bool.false_ne_true fun hfresh => ?_
    obtain ⟨_, _, hregistered, _⟩ := hfresh
    cases hregistered
  clear hr
  induction actions with
  | nil =>
    intro s _ hr
    obtain rfl : s = r := by simpa using hr
    exact (and_iff_left trivial).symm
  | cons a rest ih =>
    intro s hs hr
    obtain ⟨t, ht, hr⟩ := (runs_cons_eq_ok record).mp hr
    obtain ⟨hremembers, hagreed⟩ := record_spec hs ht
    rw [ih t hremembers hr, hagreed, and_assoc]
    refine and_congr_right fun _ => and_congr_right fun _ => ⟨fun hrest u hu => ?_, fun h => h t ht⟩
    obtain rfl : t = u := Except.ok.inj (ht.symm.trans hu)
    exact hrest

/-! Half of the fees, to be agreed on. -/

def exampleData : Calldata := ⟨5 * 10 ^ 17, []⟩

theorem allAgreed_example : ∃ r, runs record ⟨construct 1 2, [], fun _ => false⟩
      [.updateOwnerFeeSplit 1 exampleData, .updateOwnerFeeSplit 2 exampleData] = .ok r ∧
    r.manager.ownerFeeSplit = 5 * 10 ^ 17 ∧ AllAgreed r.calls := by
  have h : (do
      let r ← runs record ⟨construct 1 2, [], fun _ => false⟩
        [Action.updateOwnerFeeSplit 1 exampleData, .updateOwnerFeeSplit 2 exampleData]
      require (r.manager.ownerFeeSplit = 5 * 10 ^ 17) "") = .ok () := by
    decide +kernel
  simp only [bind_eq_ok, require_eq_ok] at h
  obtain ⟨r, hr, hsplit⟩ := h
  refine ⟨r, hr, hsplit, (allAgreed_iff hr).mpr ⟨fun hregistered => ?_, fun t ht => ⟨?_, ?_⟩⟩⟩
  · cases hregistered
  · cases ht
    exact fun _ => ⟨by decide, exampleData, rfl, rfl, rfl⟩
  · exact fun _ _ => trivial

/-- A signer who is alone calls twice, and the second call runs the body twice. -/
theorem body_runs_twice : ∃ r, runs record ⟨construct 1 1, [], fun _ => false⟩
      [.updateOwnerFeeSplit 1 exampleData, .updateOwnerFeeSplit 1 exampleData] = .ok r ∧
    r.calls.map Call.executions = [2, 1] ∧ ¬AllAgreed r.calls := by
  have h : (do
      let r ← runs record ⟨construct 1 1, [], fun _ => false⟩
        [Action.updateOwnerFeeSplit 1 exampleData, .updateOwnerFeeSplit 1 exampleData]
      require (r.calls.map Call.executions = [2, 1]) "") = .ok () := by
    decide +kernel
  simp only [bind_eq_ok, require_eq_ok] at h
  obtain ⟨r, hr, htwice⟩ := h
  refine ⟨r, hr, htwice, fun hall => ?_⟩
  cases hcalls : r.calls with
  | nil =>
    rw [hcalls] at htwice
    cases htwice
  | cons c earlier =>
    rw [hcalls] at htwice hall
    have hruns : c.executions = 2 := (List.cons.inj htwice).1
    exact absurd hall.1.1 (by rw [hruns]; decide)

/-- The registration that a signer alone leaves stands for one who has not called since, once the
ownership is another's. -/
example : (do
    let r ← runs record ⟨construct 1 1, [], fun _ => false⟩
      [.updateOwnerFeeSplit 1 exampleData, .transferOwnership 1 2,
        .updateOwnerFeeSplit 2 exampleData]
    pure (r.calls.map fun c : Call => (c.sender, c.executions))) = .ok [(2, 1), (1, 1)] := by
  decide +kernel

end DelegatedManager

end IndexProtocol
