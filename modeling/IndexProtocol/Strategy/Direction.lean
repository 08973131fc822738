import IndexProtocol.Strategy.Twap

/-! The direction of a rebalance in progress.

`engage` and `rebalance` start a rebalance of more than one trade by a trade in one
direction, and only the ratio that it aims at is stored. `iterateRebalance` reads
the direction back from the side of the target on which that ratio lies. A ratio
that is the target itself lies on neither side: the price may then move past it, and
the rebalance is traded back. -/
namespace IndexProtocol
open Evm PreciseUnitMath Morpho

namespace MorphoLeverageStrategyExtension
variable {μ : Type}

inductive Direction where
  | lever
  | delever
  deriving DecidableEq, Repr

/-- Whether the ratio has moved to the one aimed at, or past it. -/
def Direction.Reached (aim current : Nat) : Direction → Prop
  | .lever => aim ≤ current
  | .delever => current ≤ aim

/-- The direction of a trade. -/
def directionOf : ModuleCall → Option Direction
  | .enterCollateralPosition => none
  | .lever .. => some .lever
  | .delever .. => some .delever
  | .deleverToZeroBorrowBalance .. => some .delever

/-! ### Recorded runs -/

/-- A state of a run, with the direction in which a rebalance of more than one trade was last
started. -/
structure Started (μ : Type) where
  world : StrategyWorld μ
  direction : Option Direction

/-- The direction of a trade that leaves a part. -/
def partDirection (e : Executed) : Option Direction :=
  if e.chunkRebalanceNotional < e.totalRebalanceNotional then e.trade.bind directionOf else none

/-- The direction in which a call starts a rebalance of more than one trade. -/
def startedBy : Action μ → Option Executed → Option Direction
  | .engage _ _, some e => partDirection e
  | .rebalance _ _, some e => partDirection e
  | _, _ => none

section Record
variable (morpho : MorphoBlue μ) (exchanges : Address → ExchangeAdapter)

def recordStart (r : Started μ) (a : Action μ) : Result (Started μ) := do
  let (w, executed) ← step morpho exchanges r.world a
  pure ⟨w, (startedBy a executed).or r.direction⟩

/-- No methodology is set while a rebalance is in progress, except the one in place. -/
def Unset (r : Started μ) : Action μ → Prop
  | .setMethodologySettings _ newSettings =>
    r.world.extension.twapLeverageRatio = 0 ∨ newSettings = r.world.extension.methodology
  | _ => True

/-! ### What `iterateRebalance` is to do -/

variable (w : StrategyWorld μ) (c : Caller) (exchangeName : String)

/-- The checks of `iterateRebalance`. -/
def iterateInfo : Result LeverageInfo := do
  onlyEOA c
  onlyAllowedCaller w c
  let leverageInfo ← tradeInfo morpho w exchangeName
  validateNormalRebalance w leverageInfo w.extension.execution.twapCooldownPeriod
    (w.extension.exchangeSettings exchangeName).exchangeLastTradeTimestamp
  validateTWAP w
  pure leverageInfo

/-- It trades in the given direction if it trades, and ends the rebalance without a trade where the
ratio aimed at has been reached. -/
structure Follows (direction : Direction) (leverageInfo : LeverageInfo) : Prop where
  trades : ∀ v e call, iterateRebalance morpho exchanges w c exchangeName = .ok (v, e) →
    e.trade = some call → directionOf call = some direction
  ends : direction.Reached w.extension.twapLeverageRatio leverageInfo.currentLeverageRatio →
    ∃ v e, iterateRebalance morpho exchanges w c exchangeName = .ok (v, e) ∧ e.trade = none ∧
      v.extension.twapLeverageRatio = 0

end Record

/-- The stored ratio lies on the side of the target from which the rebalance started, or has not
been reached. A ratio below the target after delevering comes from rounding. -/
def Told (target aim current : Nat) : Direction → Prop
  | .lever => current < aim ∨ aim < target
  | .delever => aim < current ∨ target < aim ∨ aim < target ∧ current = aim

variable {morpho : MorphoBlue μ} {exchanges : Address → ExchangeAdapter} {w v : StrategyWorld μ}
  {c : Caller} {exchangeName : String} {e : Executed} {direction : Direction}
  {leverageInfo : LeverageInfo}

/-! ### One call of `iterateRebalance` -/

theorem leverCallData_direction {x : StrategyExtension} {chunk : Nat} {call : ModuleCall}
    (h : leverCallData x leverageInfo chunk = .ok call) : directionOf call = some .lever := by
  simp only [leverCallData, bind_eq_ok, pure_eq_ok] at h
  obtain ⟨_, _, _, _, _, _, rfl⟩ := h
  rfl

theorem deleverCallData_direction {x : StrategyExtension} {chunk : Nat} {call : ModuleCall}
    (h : deleverCallData x leverageInfo chunk = .ok call) : directionOf call = some .delever := by
  simp only [deleverCallData, bind_eq_ok, pure_eq_ok] at h
  obtain ⟨_, _, _, _, rfl⟩ := h
  rfl

/-- A rebalance toward a ratio that is not reached goes in the direction of that ratio. -/
theorem handleRebalance_direction {aim chunk total : Nat} {call : ModuleCall}
    (hopen : ¬direction.Reached aim leverageInfo.currentLeverageRatio)
    (h : handleRebalance morpho exchanges w leverageInfo aim = .ok (v, chunk, total, call)) :
    directionOf call = some direction := by
  obtain ⟨_, hsale | hpurchase⟩ := handleRebalance_eq h
  · obtain ⟨hlower, _, hdata⟩ := hsale
    cases direction with
    | lever => exact absurd hlower.le hopen
    | delever => exact deleverCallData_direction hdata
  · obtain ⟨hhigher, _, hdata⟩ := hpurchase
    cases direction with
    | lever => exact leverCallData_direction hdata
    | delever => exact absurd hhigher hopen

theorem iterateRebalance_of_info (hinfo : iterateInfo morpho w c exchangeName = .ok leverageInfo) :
    iterateRebalance morpho exchanges w c exchangeName =
      if isAdvantageousTWAP w leverageInfo.currentLeverageRatio = false then do
        let (w, chunk, total, call) ←
          handleRebalance morpho exchanges w leverageInfo w.extension.twapLeverageRatio
        let w := updateIterateState w chunk total exchangeName
        pure (w, ⟨leverageInfo.currentLeverageRatio, w.extension.twapLeverageRatio, chunk, total,
          some call⟩)
      else
        let w := updateIterateState w 0 0 exchangeName
        pure (w, ⟨leverageInfo.currentLeverageRatio, w.extension.twapLeverageRatio, 0, 0, none⟩) := by
  simp only [iterateInfo, tradeInfo, bind_eq_ok, pure_eq_ok] at hinfo
  obtain ⟨_, heoa, _, hallowed, _, hread, _, hnormal, _, htwap, rfl⟩ := hinfo
  rw [iterateRebalance, heoa, ok_bind, hallowed, ok_bind, hread, ok_bind, hnormal, ok_bind, htwap,
    ok_bind]

/-- The code can follow a direction exactly where it finds the price advantageous once the ratio
aimed at is reached. -/
theorem follows_iff_advantageous
    (hinfo : iterateInfo morpho w c exchangeName = .ok leverageInfo) :
    Follows morpho exchanges w c exchangeName direction leverageInfo ↔
      (direction.Reached w.extension.twapLeverageRatio leverageInfo.currentLeverageRatio →
        isAdvantageousTWAP w leverageInfo.currentLeverageRatio = true) := by
  constructor
  · intro h hreached
    by_contra hadverse
    rw [Bool.not_eq_true] at hadverse
    obtain ⟨v, e, hok, hnone, _⟩ := h.ends hreached
    rw [iterateRebalance_of_info hinfo, if_pos hadverse] at hok
    simp only [bind_eq_ok, pure_eq_ok, Prod.mk.injEq] at hok
    obtain ⟨_, _, _, rfl⟩ := hok
    cases hnone
  · intro h
    constructor
    · intro v e call hok htrade
      rw [iterateRebalance_of_info hinfo] at hok
      by_cases hadverse : isAdvantageousTWAP w leverageInfo.currentLeverageRatio = false
      · rw [if_pos hadverse] at hok
        simp only [bind_eq_ok, pure_eq_ok, Prod.mk.injEq] at hok
        obtain ⟨⟨_, _, _, traded⟩, hhandle, _, rfl⟩ := hok
        obtain rfl : traded = call := Option.some.inj htrade
        refine handleRebalance_direction (fun hreached => ?_) hhandle
        rw [h hreached] at hadverse
        cases hadverse
      · rw [if_neg hadverse] at hok
        simp only [pure_eq_ok, Prod.mk.injEq] at hok
        obtain ⟨_, rfl⟩ := hok
        cases htrade
    · intro hreached
      have hadvantageous : ¬isAdvantageousTWAP w leverageInfo.currentLeverageRatio = false := by
        rw [h hreached]
        decide
      have hok := @iterateRebalance_of_info _ _ exchanges _ _ _ _ hinfo
      rw [if_neg hadvantageous] at hok
      exact ⟨_, _, hok, rfl, rfl⟩

/-- **One call.** When a direction is told by the stored ratio, and by which ratios it is not. -/
theorem follows_iff_told (hinfo : iterateInfo morpho w c exchangeName = .ok leverageInfo)
    (haim : direction = .lever →
      w.extension.twapLeverageRatio ≤ w.extension.methodology.targetLeverageRatio) :
    Follows morpho exchanges w c exchangeName direction leverageInfo ↔
      Told w.extension.methodology.targetLeverageRatio w.extension.twapLeverageRatio
        leverageInfo.currentLeverageRatio direction := by
  rw [follows_iff_advantageous hinfo, isAdvantageousTWAP, decide_eq_true_iff]
  cases direction with
  | lever =>
    have hle := haim rfl
    simp only [Direction.Reached, Told]
    omega
  | delever =>
    simp only [Direction.Reached, Told]
    omega

/-! ### What starts a rebalance -/

/-- A rebalance does not go beyond both the target and the current ratio. -/
theorem newLeverageRatio_le {methodology : MethodologySettings} {current ratio : Nat}
    (hmin : methodology.minLeverageRatio ≤ methodology.targetLeverageRatio)
    (h : calculateNewLeverageRatio methodology current = .ok ratio) :
    ratio ≤ max methodology.targetLeverageRatio current := by
  simp only [calculateNewLeverageRatio, bind_eq_ok, preciseMul_eq_ok, SafeMath.sub_eq_ok,
    SafeMath.add_eq_ok, pure_eq_ok] at h
  obtain ⟨a, ⟨_, ha⟩, rest, ⟨hspeed, hrest⟩, b, ⟨_, hb⟩, _, ⟨_, rfl⟩, rfl⟩ := h
  set bound := max methodology.targetLeverageRatio current
  have hsum : a + b ≤ bound := by
    calc a + b ≤ (methodology.targetLeverageRatio * methodology.recenteringSpeed +
          rest * current) / preciseUnit := by
          rw [← ha, ← hb]
          exact Nat.div_add_div_le_add_div
      _ ≤ (bound * methodology.recenteringSpeed + rest * bound) / preciseUnit :=
          Nat.div_le_div_right (Nat.add_le_add (Nat.mul_le_mul_right _ (le_max_left _ _))
            (Nat.mul_le_mul_left _ (le_max_right _ _)))
      _ = bound := by
          rw [Nat.mul_comm rest, ← Nat.mul_add, ← hrest, Nat.add_sub_cancel' hspeed]
          exact Nat.mul_div_cancel _ preciseUnit_pos
  have htarget : methodology.targetLeverageRatio ≤ bound := le_max_left _ _
  omega

/-- A part that is less than the whole means that the ratio is not reached. -/
theorem lt_of_part {execution : ExecutionSettings} {ratio chunk total : Nat}
    (h : calculateChunkRebalanceNotional execution leverageInfo ratio true = .ok (chunk, total))
    (hpart : chunk < total) : leverageInfo.currentLeverageRatio < ratio := by
  simp only [calculateChunkRebalanceNotional, if_true, bind_eq_ok, SafeMath.sub_eq_ok,
    preciseDiv_eq_ok, preciseMul_eq_ok, pure_eq_ok, Prod.mk.injEq] at h
  obtain ⟨_, ⟨hle, rfl⟩, _, ⟨_, _, rfl⟩, _, ⟨_, rfl⟩, _, _, _, htotal⟩ := h
  by_contra hge
  rw [show ratio - leverageInfo.currentLeverageRatio = 0 by omega, Nat.zero_mul, Nat.zero_div,
    Nat.zero_mul, Nat.zero_div] at htotal
  omega

theorem engage_aim (h : engage morpho exchanges w c exchangeName = .ok (v, e)) :
    e.newLeverageRatio = w.extension.methodology.targetLeverageRatio := by
  simp only [engage, bind_eq_ok, pure_eq_ok, Prod.mk.injEq] at h
  obtain ⟨_, _, w₁, henter, _, _, _, _, _, _, _, _, ⟨_, _⟩, _, ⟨_, _⟩, _, _, rfl⟩ := h
  show w₁.extension.methodology.targetLeverageRatio = _
  rw [(invokeManager_eq henter).1]

/-! ### The settings in a run -/

/-- The settings that are checked together are the same. -/
structure SameSettings (w v : StrategyWorld μ) : Prop where
  methodology : v.extension.methodology = w.extension.methodology
  execution : v.extension.execution = w.extension.execution
  incentive : v.extension.incentive = w.extension.incentive

theorem SameSettings.of_extension {w₁ : StrategyWorld μ} (h : SameSettings w₁ v)
    (hextension : w₁.extension = w.extension) : SameSettings w v := by
  obtain ⟨hmethodology, hexecution, hincentive⟩ := h
  rw [hextension] at hmethodology hexecution hincentive
  exact ⟨hmethodology, hexecution, hincentive⟩

theorem SameSettings.congr {v₁ : StrategyWorld μ} (h : SameSettings w v₁)
    (hextension : v.extension = v₁.extension) : SameSettings w v := by
  constructor
  · rw [hextension, h.methodology]
  · rw [hextension, h.execution]
  · rw [hextension, h.incentive]

theorem updateRebalanceState_settings {chunk total ratio : Nat} :
    SameSettings w (updateRebalanceState w chunk total ratio exchangeName) := by
  unfold updateRebalanceState
  split
  · exact ⟨rfl, rfl, rfl⟩
  · exact ⟨rfl, rfl, rfl⟩

theorem updateIterateState_settings {chunk total : Nat} :
    SameSettings w (updateIterateState w chunk total exchangeName) := by
  unfold updateIterateState
  split
  · exact ⟨rfl, rfl, rfl⟩
  · exact ⟨rfl, rfl, rfl⟩

theorem updateIterateState_twap {chunk total : Nat} :
    (updateIterateState w chunk total exchangeName).extension.twapLeverageRatio =
        w.extension.twapLeverageRatio ∨
      (updateIterateState w chunk total exchangeName).extension.twapLeverageRatio = 0 := by
  unfold updateIterateState
  split
  · exact .inr rfl
  · exact .inl rfl

theorem updateRipcordState_settings : SameSettings w (updateRipcordState w exchangeName) := by
  unfold updateRipcordState
  dsimp only
  split
  · exact ⟨rfl, rfl, rfl⟩
  · exact ⟨rfl, rfl, rfl⟩

theorem updateRipcordState_twap :
    (updateRipcordState w exchangeName).extension.twapLeverageRatio = 0 := by
  unfold updateRipcordState
  dsimp only
  split
  · rfl
  · omega

/-- All settings that are checked together pass. -/
def Settled (w : StrategyWorld μ) : Prop :=
  ValidSettings w.extension.methodology w.extension.execution w.extension.incentive

theorem SameSettings.settled (h : SameSettings w v) (hw : Settled w) : Settled v := by
  rw [Settled, h.methodology, h.execution, h.incentive]
  exact hw

/-- What is known of a stored ratio: the direction it was started in, and that levering does not aim
above the target. -/
structure Aimed (r : Started μ) : Prop where
  settled : Settled r.world
  aim : r.world.extension.twapLeverageRatio ≠ 0 → ∃ d, r.direction = some d ∧
    (d = .lever → r.world.extension.twapLeverageRatio ≤
      r.world.extension.methodology.targetLeverageRatio)

namespace Aimed
variable {started : Option Direction}

/-- A call that leaves the settings, and leaves the stored ratio or clears it. -/
theorem of_same (h : Aimed ⟨w, started⟩) (hsettings : SameSettings w v)
    (htwap : v.extension.twapLeverageRatio = w.extension.twapLeverageRatio ∨
      v.extension.twapLeverageRatio = 0) : Aimed ⟨v, started⟩ := by
  refine ⟨hsettings.settled h.settled, fun hstored => ?_⟩
  have hkept := htwap.resolve_right hstored
  dsimp only at hstored ⊢
  rw [hkept] at hstored
  rw [hkept, hsettings.methodology]
  exact h.aim hstored

theorem administered {executed : Option Executed} (h : Aimed ⟨w, started⟩)
    (ha : Administered w v executed) : Aimed ⟨v, started⟩ :=
  h.of_same ⟨ha.methodology, ha.execution, ha.incentive⟩ (.inl ha.twapLeverageRatio)

/-- A call that starts a rebalance, or trades the whole of one. -/
theorem of_rebalance {w₁ : StrategyWorld μ} (h : Aimed ⟨w, started⟩)
    (hextension : w₁.extension = w.extension)
    (hv : v = updateRebalanceState w₁ e.chunkRebalanceNotional e.totalRebalanceNotional
      e.newLeverageRatio exchangeName)
    (hstart : e.chunkRebalanceNotional < e.totalRebalanceNotional → ∃ d,
      e.trade.bind directionOf = some d ∧
        (d = .lever → e.newLeverageRatio ≤ w.extension.methodology.targetLeverageRatio)) :
    Aimed ⟨v, (partDirection e).or started⟩ := by
  have hsettings : SameSettings w v := by
    rw [hv]
    exact updateRebalanceState_settings.of_extension hextension
  by_cases hpart : e.chunkRebalanceNotional < e.totalRebalanceNotional
  · obtain ⟨d, hd, hle⟩ := hstart hpart
    rw [partDirection, if_pos hpart, hd]
    have htwap : v.extension.twapLeverageRatio = e.newLeverageRatio := by
      rw [hv, updateRebalanceState, if_pos hpart]
      rfl
    refine ⟨hsettings.settled h.settled, fun _ => ⟨d, rfl, fun hlever => ?_⟩⟩
    dsimp only
    rw [htwap, hsettings.methodology]
    exact hle hlever
  · rw [partDirection, if_neg hpart]
    refine h.of_same hsettings (.inl ?_)
    rw [hv, updateRebalanceState, if_neg hpart, ← hextension]
    rfl

/-- Settings are checked when they are written. -/
theorem of_settings {f : StrategyExtension → StrategyExtension} (h : Aimed ⟨w, started⟩)
    (htwap : ∀ x, (f x).twapLeverageRatio = x.twapLeverageRatio)
    (hmethodology : w.extension.twapLeverageRatio = 0 ∨
      (f w.extension).methodology = w.extension.methodology)
    (hv : setSettings w c f = .ok v) : Aimed ⟨v, started⟩ := by
  simp only [setSettings, validateSettings, bind_eq_ok, validateNonExchangeSettings_eq_ok,
    pure_eq_ok] at hv
  obtain ⟨_, _, _, _, _, hvalid, rfl⟩ := hv
  refine ⟨hvalid, fun hstored => ?_⟩
  have hkept : (f w.extension).twapLeverageRatio = w.extension.twapLeverageRatio := htwap _
  show ∃ d, started = some d ∧ (d = .lever →
    (f w.extension).twapLeverageRatio ≤ (f w.extension).methodology.targetLeverageRatio)
  have hstored' : w.extension.twapLeverageRatio ≠ 0 := hkept ▸ hstored
  rw [hkept, hmethodology.resolve_left hstored']
  exact h.aim hstored'

end Aimed

/-! ### Runs -/

theorem engage_aimed {started : Option Direction} (h : Aimed ⟨w, started⟩)
    (hv : engage morpho exchanges w c exchangeName = .ok (v, e)) :
    Aimed ⟨v, (partDirection e).or started⟩ := by
  have haim := engage_aim hv
  obtain ⟨w₁, w₂, _, _, call, henter, _, _, hdata, hlever, htrade, hupdate⟩ := engage_eq hv
  have hextension : w₂.extension = w.extension :=
    (invokeManager_eq hlever).1.trans (invokeManager_eq henter).1
  refine h.of_rebalance hextension hupdate fun _ => ⟨.lever, ?_, fun _ => haim.le⟩
  rw [htrade]
  exact leverCallData_direction hdata

theorem rebalance_aimed {started : Option Direction} (h : Aimed ⟨w, started⟩)
    (hv : rebalance morpho exchanges w c exchangeName = .ok (v, e)) :
    Aimed ⟨v, (partDirection e).or started⟩ := by
  obtain ⟨w₁, info, call, _, _, _, hratio, hhandle, htrade, hupdate⟩ := rebalance_eq hv
  obtain ⟨hinvoke, hsale | hpurchase⟩ := handleRebalance_eq hhandle
  · obtain ⟨_, _, hdata⟩ := hsale
    refine h.of_rebalance (invokeManager_eq hinvoke).1 hupdate fun _ =>
      ⟨.delever, ?_, fun h => absurd h (by decide)⟩
    rw [htrade]
    exact deleverCallData_direction hdata
  · obtain ⟨_, hchunk, hdata⟩ := hpurchase
    refine h.of_rebalance (invokeManager_eq hinvoke).1 hupdate fun hpart => ⟨.lever, ?_, fun _ => ?_⟩
    · rw [htrade]
      exact leverCallData_direction hdata
    · have hlt := lt_of_part hchunk hpart
      have hle := newLeverageRatio_le h.settled.min_le_target hratio
      exact (le_max_iff.mp hle).resolve_right hlt.not_ge

theorem iterateRebalance_aimed {started : Option Direction} (h : Aimed ⟨w, started⟩)
    (hv : iterateRebalance morpho exchanges w c exchangeName = .ok (v, e)) :
    Aimed ⟨v, started⟩ := by
  obtain ⟨_, _, _, _, htraded | hended⟩ := iterateRebalance_eq hv
  · obtain ⟨w₁, _, hhandle, _, rfl⟩ := htraded
    have hextension := (invokeManager_eq (handleRebalance_eq hhandle).1).1
    refine h.of_same (updateIterateState_settings.of_extension hextension) ?_
    rw [← hextension]
    exact updateIterateState_twap
  · obtain ⟨_, rfl⟩ := hended
    exact h.of_same updateIterateState_settings updateIterateState_twap

theorem ripcord_aimed {started : Option Direction} {transferred : Nat} (h : Aimed ⟨w, started⟩)
    (hv : ripcord morpho exchanges w c exchangeName = .ok (v, e, transferred)) :
    Aimed ⟨v, started⟩ := by
  obtain ⟨w₁, _, _, _, _, _, _, hinvoke, _, hextension, _⟩ := ripcord_eq hv
  have hsettings : SameSettings w (updateRipcordState w₁ exchangeName) :=
    updateRipcordState_settings.of_extension (invokeManager_eq hinvoke).1
  refine h.of_same (hsettings.congr hextension) (.inr ?_)
  rw [hextension]
  exact updateRipcordState_twap

theorem recordStart_aimed {r t : Started μ} {a : Action μ} (h : Aimed r) (hC : Unset r a)
    (ht : recordStart morpho exchanges r a = .ok t) : Aimed t := by
  simp only [recordStart, bind_eq_ok, pure_eq_ok] at ht
  obtain ⟨⟨v, executed⟩, hstep, rfl⟩ := ht
  cases a with
  | engage c name =>
    simp only [step, bind_eq_ok, pure_eq_ok, Prod.mk.injEq] at hstep
    obtain ⟨_, hcall, rfl, rfl⟩ := hstep
    exact engage_aimed h hcall
  | rebalance c name =>
    simp only [step, bind_eq_ok, pure_eq_ok, Prod.mk.injEq] at hstep
    obtain ⟨_, hcall, rfl, rfl⟩ := hstep
    exact rebalance_aimed h hcall
  | iterateRebalance c name =>
    simp only [step, bind_eq_ok, pure_eq_ok, Prod.mk.injEq] at hstep
    obtain ⟨_, hcall, rfl, rfl⟩ := hstep
    exact iterateRebalance_aimed h hcall
  | ripcord c name =>
    simp only [step, bind_eq_ok, pure_eq_ok, Prod.mk.injEq] at hstep
    obtain ⟨_, hcall, rfl, rfl⟩ := hstep
    exact ripcord_aimed h hcall
  | disengage c name =>
    simp only [step, bind_eq_ok, pure_eq_ok, Prod.mk.injEq] at hstep
    obtain ⟨_, hcall, rfl, rfl⟩ := hstep
    obtain ⟨_, _, _, _, hinvoke, _⟩ := disengage_eq hcall
    have hextension := (invokeManager_eq hinvoke).1
    refine h.of_same (.of_extension ⟨rfl, rfl, rfl⟩ hextension) (.inl ?_)
    rw [hextension]
  | setMethodologySettings c newSettings =>
    simp only [step, bind_eq_ok, pure_eq_ok, Prod.mk.injEq] at hstep
    obtain ⟨_, hcall, rfl, rfl⟩ := hstep
    refine h.of_settings ?_ ?_ hcall
    · exact fun _ => rfl
    · exact hC
  | setExecutionSettings c newSettings =>
    simp only [step, bind_eq_ok, pure_eq_ok, Prod.mk.injEq] at hstep
    obtain ⟨_, hcall, rfl, rfl⟩ := hstep
    refine h.of_settings ?_ ?_ hcall
    · exact fun _ => rfl
    · exact .inr rfl
  | setIncentiveSettings c newSettings =>
    simp only [step, bind_eq_ok, pure_eq_ok, Prod.mk.injEq] at hstep
    obtain ⟨_, hcall, rfl, rfl⟩ := hstep
    refine h.of_settings ?_ ?_ hcall
    · exact fun _ => rfl
    · exact .inr rfl
  | setOverrideNoRebalanceInProgress c override => exact h.administered (step_administered hstep trivial)
  | addEnabledExchange c name settings => exact h.administered (step_administered hstep trivial)
  | removeEnabledExchange c name => exact h.administered (step_administered hstep trivial)
  | updateEnabledExchange c name settings => exact h.administered (step_administered hstep trivial)
  | withdrawEtherBalance c => exact h.administered (step_administered hstep trivial)
  | updateCallerStatus c callers statuses => exact h.administered (step_administered hstep trivial)
  | updateAnyoneCallable c status => exact h.administered (step_administered hstep trivial)
  | elsewhere manager world oraclePrice ether =>
    simp only [step, pure_eq_ok, Prod.mk.injEq] at hstep
    obtain ⟨rfl, rfl⟩ := hstep
    exact h.of_same ⟨rfl, rfl, rfl⟩ (.inl rfl)

/-- The constructor checks the settings. -/
theorem deploy_settled {self : Address} {strategy : ContractSettings}
    {methodology : MethodologySettings} {execution : ExecutionSettings}
    {incentive : IncentiveSettings} {names : List String} {settings : List ExchangeSettings}
    (h : deploy self strategy methodology execution incentive names settings = .ok w.extension) :
    Settled w := by
  simp only [deploy, validateSettings, bind_eq_ok, validateNonExchangeSettings_eq_ok,
    pure_eq_ok] at h
  obtain ⟨_, _, x, _, _, hvalid, hx⟩ := h
  rw [hx] at hvalid
  exact hvalid

/-- **The direction of a rebalance in progress.** In a run from the deployment in which the
methodology stays while a rebalance is in progress, whatever becomes of the price, a call of
`iterateRebalance` that passes its checks follows the trade that the rebalance was started by
exactly where the stored ratio tells the direction. -/
theorem iterateRebalance_follows_iff {self : Address} {strategy : ContractSettings}
    {methodology : MethodologySettings} {execution : ExecutionSettings}
    {incentive : IncentiveSettings} {names : List String} {settings : List ExchangeSettings}
    {actions : List (Action μ)} {r : Started μ}
    (hdeploy : deploy self strategy methodology execution incentive names settings = .ok w.extension)
    (hC : Along (recordStart morpho exchanges) Unset ⟨w, none⟩ actions)
    (hr : runs (recordStart morpho exchanges) ⟨w, none⟩ actions = .ok r)
    (hinfo : iterateInfo morpho r.world c exchangeName = .ok leverageInfo) :
    ∃ d, r.direction = some d ∧
      (Follows morpho exchanges r.world c exchangeName d leverageInfo ↔
        Told r.world.extension.methodology.targetLeverageRatio r.world.extension.twapLeverageRatio
          leverageInfo.currentLeverageRatio d) := by
  have haimed : Aimed r := runs_induction_along (fun r _ => Aimed r)
    (fun _ _ _ _ h hC ht => recordStart_aimed h hC ht)
    ⟨deploy_settled hdeploy, fun hstored => absurd (deploy_twap hdeploy) hstored⟩ hC hr
  have hstored : r.world.extension.twapLeverageRatio ≠ 0 := by
    simp only [iterateInfo, validateTWAP, bind_eq_ok, require_eq_ok, exists_const] at hinfo
    obtain ⟨_, _, _, _, _, _, _, _, htwap, _⟩ := hinfo
    exact htwap.ne'
  obtain ⟨d, hd, haim⟩ := haimed.aim hstored
  exact ⟨d, hd, follows_iff_told hinfo haim⟩

/-! A rebalance toward the minimum ratio, below the target, and an engagement, toward the target. Each
is started by levering, and then the price falls. -/

/-- Time passes, and the price is a different one. -/
def priceMoves (w : StrategyWorld Ledger) (time price : Nat) : Action Ledger :=
  .elsewhere w.manager
    (MorphoLeverageModule.withOthers w.world { w.world.rest.others with timestamp := time })
    (fun _ => pure price) w.ether

def exampleRebalancing (w : StrategyWorld Ledger) : List (Action Ledger) :=
  [.updateAnyoneCallable exampleOperator true, priceMoves w 100000 (2 * 10 ^ 36),
    .rebalance exampleKeeper "exchange"]

theorem exampleRebalancing_unset (w w' : StrategyWorld Ledger) (r : Started Ledger)
    (time price : Nat) : Along (recordStart reference MorphoLeverageModule.exampleExchange) Unset r
      (exampleRebalancing w ++ [priceMoves w' time price]) :=
  along_of_forall (by simp [exampleRebalancing, priceMoves, Unset]) r

/-- The price has moved past the ratio aimed at, and the rebalance ends. -/
theorem iterateRebalance_follows_example : ∃ w r t v e,
    exampleStrategy 100000 0 (3 * 10 ^ 24) (2 * 10 ^ 24) = .ok w ∧
    runs (recordStart reference MorphoLeverageModule.exampleExchange) ⟨w, none⟩
      (exampleRebalancing w) = .ok r ∧
    runs (recordStart reference MorphoLeverageModule.exampleExchange) r
      [priceMoves r.world 200000 (16 * 10 ^ 35)] = .ok t ∧ t.direction = some .lever ∧
    iterateRebalance reference MorphoLeverageModule.exampleExchange t.world exampleKeeper
      "exchange" = .ok (v, e) ∧ e.trade = none ∧ v.extension.twapLeverageRatio = 0 := by
  have h : (do
      let w ← exampleStrategy 100000 0 (3 * 10 ^ 24) (2 * 10 ^ 24)
      let r ← runs (recordStart reference MorphoLeverageModule.exampleExchange) ⟨w, none⟩
        (exampleRebalancing w)
      let t ← runs (recordStart reference MorphoLeverageModule.exampleExchange) r
        [priceMoves r.world 200000 (16 * 10 ^ 35)]
      let info ← iterateInfo reference t.world exampleKeeper "exchange"
      require (t.direction = some Direction.lever ∧
        t.world.extension.twapLeverageRatio < t.world.extension.methodology.targetLeverageRatio ∧
        t.world.extension.twapLeverageRatio ≤ info.currentLeverageRatio) "") = .ok () := by
    decide +kernel
  simp only [bind_eq_ok, require_eq_ok] at h
  obtain ⟨w, hw, r, hr, t, ht, info, hinfo, hdirection, hbelow, hreached⟩ := h
  obtain ⟨d, hd, hiff⟩ := iterateRebalance_follows_iff (exampleStrategy_deployed hw)
    (exampleRebalancing_unset w r.world ⟨w, none⟩ _ _) (runs_append hr ht) hinfo
  obtain rfl := Option.some.inj (hdirection.symm.trans hd)
  obtain ⟨v, e, hok, htrade, hcleared⟩ := (hiff.mpr (.inr hbelow)).ends hreached
  exact ⟨w, r, t, v, e, hw, hr, ht, hdirection, hok, htrade, hcleared⟩

/-- The price has moved past the target, and a part of the collateral is sold. -/
theorem iterateRebalance_trades_back : ∃ w r t info v e call, exampleFunded = .ok w ∧
    runs (recordStart (accruing 0) MorphoLeverageModule.exampleExchange) ⟨w, none⟩
      [.updateAnyoneCallable exampleOperator true, .engage exampleOperator "exchange"] = .ok r ∧
    runs (recordStart (accruing 0) MorphoLeverageModule.exampleExchange) r
      [priceMoves r.world 10000 (165 * 10 ^ 33)] = .ok t ∧
    t.direction = some .lever ∧
    iterateInfo (accruing 0) t.world exampleKeeper "exchange" = .ok info ∧
    t.world.extension.twapLeverageRatio ≤ info.currentLeverageRatio ∧
    iterateRebalance (accruing 0) MorphoLeverageModule.exampleExchange t.world exampleKeeper
      "exchange" = .ok (v, e) ∧
    e.trade = some call ∧ directionOf call = some .delever := by
  have h : (do
      let w ← exampleFunded
      let r ← runs (recordStart (accruing 0) MorphoLeverageModule.exampleExchange) ⟨w, none⟩
        [.updateAnyoneCallable exampleOperator true, .engage exampleOperator "exchange"]
      let t ← runs (recordStart (accruing 0) MorphoLeverageModule.exampleExchange) r
        [priceMoves r.world 10000 (165 * 10 ^ 33)]
      let info ← iterateInfo (accruing 0) t.world exampleKeeper "exchange"
      let traded ← iterateRebalance (accruing 0) MorphoLeverageModule.exampleExchange t.world
        exampleKeeper "exchange"
      require (t.direction = some Direction.lever ∧
        t.world.extension.twapLeverageRatio ≤ info.currentLeverageRatio ∧
        traded.2.trade.bind directionOf = some Direction.delever) "") = .ok () := by
    decide +kernel
  simp only [bind_eq_ok, require_eq_ok] at h
  obtain ⟨w, hw, r, hr, t, ht, info, hinfo, ⟨v, e⟩, hok, hdirection, hreached, htrade⟩ := h
  obtain ⟨call, hcall, hdelever⟩ := Option.bind_eq_some_iff.mp htrade
  exact ⟨w, r, t, info, v, e, call, hw, hr, ht, hdirection, hinfo, hreached, hok, hcall, hdelever⟩

end MorphoLeverageStrategyExtension

end IndexProtocol
