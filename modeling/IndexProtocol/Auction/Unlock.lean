import IndexProtocol.Auction.Bid

/-! When a SetToken that a rebalance has locked can be unlocked.

Anybody may unlock it when the time is over. The module first computes whether it
could be unlocked early, also then, and reverts where that reverts: at a target
that cannot be compared, or at a quote asset without a target of which at most one
is left. Until the manager starts another rebalance the SetToken stays locked. -/
namespace IndexProtocol
open Evm PreciseUnitMath ModuleBase

namespace AuctionRebalanceModuleV1
variable {adapters : Address → PriceAdapter} {module : Address} {w v : AuctionWorld}

/-! ### The conditions for an early end -/

/-- Each component before which all targets are met can be compared. -/
def TargetsEvaluate (w : AuctionWorld) (components : List Address) : Prop :=
  ∀ before component after, components = before ++ component :: after →
    (∀ c ∈ before, Met w c) → TargetEvaluates w component

theorem targetsEvaluate_cons {component : Address} {rest : List Address} :
    TargetsEvaluate w (component :: rest) ↔
      TargetEvaluates w component ∧ (Met w component → TargetsEvaluate w rest) := by
  constructor
  · intro h
    refine ⟨h [] component rest rfl (fun _ hc => absurd hc List.not_mem_nil), ?_⟩
    intro hmet before c after hrest hbefore
    refine h (component :: before) c after (by rw [hrest, List.cons_append]) ?_
    intro b hb
    cases List.mem_cons.mp hb with
    | inl heq => exact heq ▸ hmet
    | inr hmem => exact hbefore b hmem
  · rintro ⟨hfirst, hrest⟩ before c after heq hbefore
    cases before with
    | nil =>
      obtain ⟨rfl, _⟩ := List.cons.inj heq
      exact hfirst
    | cons b before =>
      obtain ⟨rfl, hafter⟩ := List.cons.inj heq
      refine hrest (hbefore _ List.mem_cons_self) before c after hafter ?_
      exact fun c hc => hbefore c (List.mem_cons_of_mem _ hc)

/-- The loop over the components answers where each one it comes to can be compared. -/
theorem targetsMet_eq_ok (hwf : w.setToken.WellFormed) {components : List Address} {met : Bool} :
    targetsMet w components = .ok met ↔
      TargetsEvaluate w components ∧ (met = true ↔ ∀ c ∈ components, Met w c) := by
  induction components generalizing met with
  | nil =>
    have hevaluates : TargetsEvaluate w [] := by
      intro before c after h
      exact absurd h.symm (by simp)
    rw [targetsMet, pure_eq_ok]
    simp [hevaluates, eq_comm]
  | cons component rest ih =>
    simp only [targetsMet, bind_eq_ok, targetUnmet_eq_ok hwf, targetsEvaluate_cons,
      List.forall_mem_cons]
    constructor
    · rintro ⟨_, ⟨hevaluates, rfl⟩, h⟩
      by_cases hmet : Met w component
      · rw [decide_eq_false (not_not.mpr hmet), if_neg Bool.false_ne_true, ih] at h
        exact ⟨⟨hevaluates, fun _ => h.1⟩, h.2.trans (and_iff_right hmet).symm⟩
      · rw [decide_eq_true hmet, if_pos rfl] at h
        obtain rfl := pure_eq_ok.mp h
        exact ⟨⟨hevaluates, fun hmet' => absurd hmet' hmet⟩,
          iff_of_false Bool.false_ne_true fun hall => hmet hall.1⟩
    · rintro ⟨⟨hevaluates, hrest⟩, hall⟩
      refine ⟨_, ⟨hevaluates, rfl⟩, ?_⟩
      by_cases hmet : Met w component
      · rw [decide_eq_false (not_not.mpr hmet), if_neg Bool.false_ne_true, ih]
        exact ⟨hrest hmet, hall.trans (and_iff_right hmet)⟩
      · rw [decide_eq_true hmet, if_pos rfl, pure_eq_ok]
        cases met with
        | true => exact absurd (hall.mp rfl).1 hmet
        | false => rfl

/-- The unit of the quote asset can be compared with its target: not with a target of zero, unless
there is clearly more. -/
def QuoteEvaluates (w : AuctionWorld) : Prop :=
  let quoteAsset := (rebalance w).quoteAsset
  Readable w quoteAsset ∧ normalizedTarget w quoteAsset + 1 < uintBound ∧
    ¬(normalizedTarget w quoteAsset = 0 ∧ currentUnit w quoteAsset ≤ 1)

theorem isQuoteAssetExcessOrAtTarget_eq_ok (hwf : w.setToken.WellFormed) {r : Bool} :
    isQuoteAssetExcessOrAtTarget w = .ok r ↔ QuoteEvaluates w ∧
      (r = true ↔ normalizedTarget w (rebalance w).quoteAsset ≤
        currentUnit w (rebalance w).quoteAsset + 1) := by
  simp only [isQuoteAssetExcessOrAtTarget, bind_eq_ok, getDefaultPositionRealUnit_eq_ok hwf,
    getNormalizedTargetUnit_eq_ok hwf, approximatelyEquals_eq_ok, pure_eq_ok, QuoteEvaluates]
  constructor
  · rintro ⟨_, ⟨hunit, rfl⟩, _, ⟨htarget, hmultiplier, rfl⟩, _, ⟨hbound, hlow, rfl⟩, rfl⟩
    refine ⟨⟨⟨hunit, htarget, hmultiplier⟩, hbound, by omega⟩, ?_⟩
    simp only [Bool.or_eq_true, decide_eq_true_eq]
    omega
  · rintro ⟨⟨hreadable, hbound, hlow⟩, hr⟩
    refine ⟨_, ⟨hreadable.unit, rfl⟩, _, ⟨hreadable.target, hreadable.multiplier, rfl⟩, _,
      ⟨hbound, by omega, rfl⟩, ?_⟩
    rw [Bool.eq_iff_iff, hr]
    simp only [Bool.or_eq_true, decide_eq_true_eq]
    omega

/-- Early unlocking is enabled. -/
structure EarlyEnabled (w : AuctionWorld) : Prop where
  targets : ∀ c ∈ (rebalance w).rebalanceComponents, Met w c
  quote : normalizedTarget w (rebalance w).quoteAsset ≤ currentUnit w (rebalance w).quoteAsset + 1
  raise : (rebalance w).raiseTargetPercentage = 0

/-- No evaluation of the conditions reverts, in the order in which they are evaluated. -/
structure Evaluates (w : AuctionWorld) : Prop where
  targets : TargetsEvaluate w (rebalance w).rebalanceComponents
  quote : (∀ c ∈ (rebalance w).rebalanceComponents, Met w c) → QuoteEvaluates w

theorem canUnlockEarly_eq_ok (hwf : w.setToken.WellFormed) {early : Bool} :
    canUnlockEarly w = .ok early ↔ Evaluates w ∧ (early = true ↔ EarlyEnabled w) := by
  simp only [canUnlockEarly, allTargetsMet, bind_eq_ok, targetsMet_eq_ok hwf]
  constructor
  · rintro ⟨met, ⟨htargets, hmet⟩, h⟩
    cases met with
    | true =>
      have hall := hmet.mp rfl
      simp only [if_true, bind_eq_ok, isQuoteAssetExcessOrAtTarget_eq_ok hwf, pure_eq_ok] at h
      obtain ⟨atTarget, ⟨hquote, hat⟩, rfl⟩ := h
      refine ⟨⟨htargets, fun _ => hquote⟩, ?_⟩
      rw [Bool.and_eq_true, hat, decide_eq_true_iff]
      exact ⟨fun h => ⟨hall, h.1, h.2⟩, fun hearly => ⟨hearly.quote, hearly.raise⟩⟩
    | false =>
      have hunmet : ¬∀ c ∈ (rebalance w).rebalanceComponents, Met w c :=
        fun hall => Bool.false_ne_true (hmet.mpr hall)
      simp only [Bool.false_eq_true, if_false, pure_eq_ok] at h
      subst h
      exact ⟨⟨htargets, fun hall => absurd hall hunmet⟩,
        iff_of_false Bool.false_ne_true fun hearly => hunmet hearly.targets⟩
  · rintro ⟨hevaluates, hearly⟩
    by_cases hall : ∀ c ∈ (rebalance w).rebalanceComponents, Met w c
    · refine ⟨true, ⟨hevaluates.targets, iff_of_true rfl hall⟩, ?_⟩
      simp only [if_true, bind_eq_ok, isQuoteAssetExcessOrAtTarget_eq_ok hwf, pure_eq_ok]
      refine ⟨decide (normalizedTarget w (rebalance w).quoteAsset ≤
        currentUnit w (rebalance w).quoteAsset + 1), ⟨hevaluates.quote hall, decide_eq_true_iff⟩, ?_⟩
      rw [Bool.eq_iff_iff, hearly, Bool.and_eq_true, decide_eq_true_iff, decide_eq_true_iff]
      exact ⟨fun h => ⟨hall, h.1, h.2⟩, fun h => ⟨h.quote, h.raise⟩⟩
    · refine ⟨false, ⟨hevaluates.targets, iff_of_false Bool.false_ne_true hall⟩, ?_⟩
      simp only [Bool.false_eq_true, if_false, pure_eq_ok]
      cases early with
      | true => exact absurd (hearly.mp rfl).targets hall
      | false => rfl

/-! ### Unlocking -/

/-- The time of the rebalance is over. -/
def Elapsed (w : AuctionWorld) : Prop :=
  (rebalance w).rebalanceStartTime + (rebalance w).rebalanceDuration ≤ w.rest.timestamp

/-- The SetToken is locked, and the module may unlock it but for what the Controller says. -/
structure LockedBy (module : Address) (s : SetToken) : Prop where
  isLocked : s.isLocked = true
  locker : s.locker = module
  initialized : s.moduleStates module = .initialized

/-- Unlocking as documented: whenever the time is over, and before exactly if it is enabled and can
be evaluated. -/
structure Unlockable (module : Address) (w : AuctionWorld) : Prop where
  elapsed : Elapsed w → ∃ v, unlock module w = .ok v ∧ v.setToken.isLocked = false
  early : ¬Elapsed w → ((∃ v, unlock module w = .ok v) ↔ EarlyEnabled w ∧ Evaluates w)

/-- What unlocking needs: the conditions for an early end can be evaluated also when the time is over,
its end is a time, and the module is enabled. -/
structure Releasable (module : Address) (w : AuctionWorld) : Prop where
  evaluates : Elapsed w → Evaluates w
  expiry : EarlyEnabled w → Evaluates w →
    (rebalance w).rebalanceStartTime + (rebalance w).rebalanceDuration < uintBound
  enabled : (Elapsed w ∨ EarlyEnabled w ∧ Evaluates w) →
    w.setToken.controller.isModule module = true

theorem unlock_eq (h : unlock module w = .ok v) : v.setToken.isLocked = false := by
  simp only [unlock, bind_eq_ok] at h
  obtain ⟨_, _, _, _, _, _, h⟩ := h
  obtain ⟨t, ht, rfl⟩ := World.callSetToken_eq_ok.mp h
  obtain ⟨_, _, _, _, rfl⟩ := SetToken.unlock_eq_ok.mp ht
  rfl

/-- When a locked SetToken is unlocked. -/
theorem unlock_succeeds_iff (hwf : w.setToken.WellFormed) (hlocked : LockedBy module w.setToken) :
    (∃ v, unlock module w = .ok v) ↔
      (rebalance w).rebalanceStartTime + (rebalance w).rebalanceDuration < uintBound ∧
        Evaluates w ∧ (Elapsed w ∨ EarlyEnabled w) ∧
          w.setToken.controller.isModule module = true := by
  simp only [unlock, isRebalanceDurationElapsed, bind_eq_ok, SafeMath.add_eq_ok, pure_eq_ok,
    canUnlockEarly_eq_ok hwf, require_eq_ok, exists_const]
  constructor
  · rintro ⟨v, _, ⟨_, ⟨hbound, rfl⟩, rfl⟩, early, ⟨hevaluates, hearly⟩, hallowed, h⟩
    obtain ⟨t, ht, _⟩ := World.callSetToken_eq_ok.mp h
    refine ⟨hbound, hevaluates, ?_, (SetToken.unlock_eq_ok.mp ht).2.1⟩
    rw [decide_eq_true_iff, hearly] at hallowed
    exact hallowed
  · rintro ⟨hbound, hevaluates, hallowed, henabled⟩
    have hunlock : ∃ t, w.setToken.unlock module = .ok t :=
      ⟨_, SetToken.unlock_eq_ok.mpr
        ⟨hlocked.initialized, henabled, hlocked.isLocked, hlocked.locker, rfl⟩⟩
    obtain ⟨t, ht⟩ := hunlock
    classical
    refine ⟨_, _, ⟨_, ⟨hbound, rfl⟩, rfl⟩, decide (EarlyEnabled w),
      ⟨hevaluates, decide_eq_true_iff⟩, ?_, World.callSetToken_eq_ok.mpr ⟨t, ht, rfl⟩⟩
    rw [decide_eq_true_iff, decide_eq_true_iff]
    exact hallowed

/-- A locked SetToken can be unlocked as documented exactly where nothing is in the way. -/
theorem unlockable_iff (hwf : w.setToken.WellFormed) (htime : w.rest.timestamp < uintBound)
    (hlocked : LockedBy module w.setToken) : Unlockable module w ↔ Releasable module w := by
  have hsucceeds := unlock_succeeds_iff hwf hlocked
  have hbounded (helapsed : Elapsed w) :
      (rebalance w).rebalanceStartTime + (rebalance w).rebalanceDuration < uintBound :=
    lt_of_le_of_lt helapsed htime
  constructor
  · intro h
    have hunlocks (hallowed : Elapsed w ∨ EarlyEnabled w ∧ Evaluates w) :
        ∃ v, unlock module w = .ok v := by
      by_cases helapsed : Elapsed w
      · obtain ⟨v, hv, _⟩ := h.elapsed helapsed
        exact ⟨v, hv⟩
      · exact (h.early helapsed).mpr (hallowed.resolve_left helapsed)
    refine ⟨fun helapsed => ?_, fun hearly hevaluates => ?_, fun hallowed => ?_⟩
    · exact (hsucceeds.mp (hunlocks (.inl helapsed))).2.1
    · exact (hsucceeds.mp (hunlocks (.inr ⟨hearly, hevaluates⟩))).1
    · exact (hsucceeds.mp (hunlocks hallowed)).2.2.2
  · intro h
    constructor
    · intro helapsed
      obtain ⟨v, hv⟩ := hsucceeds.mpr ⟨hbounded helapsed, h.evaluates helapsed, .inl helapsed,
        h.enabled (.inl helapsed)⟩
      exact ⟨v, hv, unlock_eq hv⟩
    · intro helapsed
      rw [hsucceeds]
      constructor
      · rintro ⟨_, hevaluates, hallowed, _⟩
        exact ⟨hallowed.resolve_left helapsed, hevaluates⟩
      · rintro ⟨hearly, hevaluates⟩
        exact ⟨h.expiry hearly hevaluates, hevaluates, .inr hearly,
          h.enabled (.inr ⟨hearly, hevaluates⟩)⟩

end AuctionRebalanceModuleV1

end IndexProtocol
