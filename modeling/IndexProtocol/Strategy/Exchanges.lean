import IndexProtocol.Leverage.Lifecycle
import IndexProtocol.Strategy.Run

/-! The table of exchanges of the strategy.

The names of the enabled exchanges are kept in an array, their settings in a
mapping, and the time of the last trade both by exchange and for the strategy.
Over every run the array lists exactly the names with a size, each once, and no
exchange traded later than the strategy did. -/
namespace IndexProtocol
open Evm PreciseUnitMath Morpho

namespace MorphoLeverageStrategyExtension
variable {μ : Type} {morpho : MorphoBlue μ} {exchanges : Address → ExchangeAdapter}
  {w w₁ u v : StrategyWorld μ} {c : Caller} {exchangeName : String} {e : Executed}

/-- An exchange is enabled where its settings have a size. -/
def Enabled (x : StrategyExtension) (name : String) : Prop :=
  (x.exchangeSettings name).twapMaxTradeSize ≠ 0

def lastTradeOf (x : StrategyExtension) (name : String) : Nat :=
  (x.exchangeSettings name).exchangeLastTradeTimestamp

structure Tabled (w : StrategyWorld μ) : Prop where
  listed : Lists w.extension.enabledExchanges (Enabled w.extension)
  exchange_le : ∀ name, lastTradeOf w.extension name ≤ w.extension.globalLastTradeTimestamp
  global_le : w.extension.globalLastTradeTimestamp ≤ timestamp w

/-! ### Calls that leave the table alone -/

structure SameTable (w v : StrategyWorld μ) : Prop where
  enabledExchanges : v.extension.enabledExchanges = w.extension.enabledExchanges
  exchangeSettings : v.extension.exchangeSettings = w.extension.exchangeSettings
  global : v.extension.globalLastTradeTimestamp = w.extension.globalLastTradeTimestamp
  timestamp_le : timestamp w ≤ timestamp v

theorem Tabled.of_same (h : Tabled w) (hsame : SameTable w v) : Tabled v := by
  refine ⟨?_, fun name => ?_, ?_⟩
  · rw [hsame.enabledExchanges]
    refine h.listed.of_iff fun name => ?_
    rw [Enabled, Enabled, hsame.exchangeSettings]
  · rw [lastTradeOf, hsame.exchangeSettings, hsame.global]
    exact h.exchange_le name
  · rw [hsame.global]
    exact h.global_le.trans hsame.timestamp_le

theorem invokeManager_same {call : ModuleCall}
    (h : invokeManager morpho exchanges w call = .ok v) : SameTable w v := by
  have hextension := (invokeManager_eq h).1
  exact ⟨by rw [hextension], by rw [hextension], by rw [hextension], (invokeManager_timestamp h).ge⟩

theorem setSettings_same {f : StrategyExtension → StrategyExtension}
    (hf : ∀ x, (f x).enabledExchanges = x.enabledExchanges ∧
      (f x).exchangeSettings = x.exchangeSettings ∧
      (f x).globalLastTradeTimestamp = x.globalLastTradeTimestamp)
    (h : setSettings w c f = .ok v) : SameTable w v := by
  simp only [setSettings, bind_eq_ok, pure_eq_ok] at h
  obtain ⟨_, _, _, _, _, _, rfl⟩ := h
  obtain ⟨henabled, hsettings, hglobal⟩ := hf w.extension
  exact ⟨henabled, hsettings, hglobal, le_rfl⟩

/-! ### Trades -/

/-- A trade on an exchange writes its time, and that of the strategy. -/
structure Stamped (w v : StrategyWorld μ) (exchangeName : String) : Prop where
  timestamp : timestamp v = timestamp w
  enabledExchanges : v.extension.enabledExchanges = w.extension.enabledExchanges
  exchangeSettings : v.extension.exchangeSettings =
    Function.update w.extension.exchangeSettings exchangeName
      { w.extension.exchangeSettings exchangeName with
        exchangeLastTradeTimestamp := MorphoLeverageStrategyExtension.timestamp w }
  global : v.extension.globalLastTradeTimestamp = MorphoLeverageStrategyExtension.timestamp w

namespace Stamped

theorem setTwap (h : Stamped w v exchangeName) (ratio : Nat) :
    Stamped w (setTwap v ratio) exchangeName :=
  ⟨h.timestamp, h.enabledExchanges, h.exchangeSettings, h.global⟩

theorem of_update (hextension : w₁.extension = w.extension)
    (htimestamp : MorphoLeverageStrategyExtension.timestamp w₁ =
      MorphoLeverageStrategyExtension.timestamp w) :
    Stamped w (updateLastTradeTimestamp w₁ exchangeName) exchangeName := by
  refine ⟨htimestamp, ?_, ?_, ?_⟩
  · show w₁.extension.enabledExchanges = _
    rw [hextension]
  · show Function.update w₁.extension.exchangeSettings exchangeName
      { w₁.extension.exchangeSettings exchangeName with exchangeLastTradeTimestamp := _ } = _
    rw [hextension, htimestamp]
  · exact htimestamp

theorem of_invoke {call : ModuleCall} (h : invokeManager morpho exchanges w call = .ok w₁) :
    Stamped w (updateLastTradeTimestamp w₁ exchangeName) exchangeName :=
  of_update (invokeManager_eq h).1 (invokeManager_timestamp h)

theorem updateRebalanceState {chunk total ratio : Nat}
    (h : Stamped w (updateLastTradeTimestamp w₁ exchangeName) exchangeName) :
    Stamped w (updateRebalanceState w₁ chunk total ratio exchangeName) exchangeName := by
  unfold MorphoLeverageStrategyExtension.updateRebalanceState
  dsimp only
  split_ifs
  · exact h.setTwap ratio
  · exact h

theorem updateIterateState {chunk total : Nat}
    (h : Stamped w (updateLastTradeTimestamp w₁ exchangeName) exchangeName) :
    Stamped w (updateIterateState w₁ chunk total exchangeName) exchangeName := by
  unfold MorphoLeverageStrategyExtension.updateIterateState
  dsimp only
  split_ifs
  · exact h.setTwap 0
  · exact h

theorem updateRipcordState
    (h : Stamped w (updateLastTradeTimestamp w₁ exchangeName) exchangeName) :
    Stamped w (updateRipcordState w₁ exchangeName) exchangeName := by
  unfold MorphoLeverageStrategyExtension.updateRipcordState
  dsimp only
  split_ifs
  · exact h.setTwap 0
  · exact h

end Stamped

/-- A trade is at the current time, so it is no earlier than any before. -/
theorem Tabled.stamp (h : Tabled w) (hv : Stamped w v exchangeName) : Tabled v := by
  have hsettings (name : String) : v.extension.exchangeSettings name =
      if name = exchangeName then
        { w.extension.exchangeSettings exchangeName with exchangeLastTradeTimestamp := timestamp w }
      else w.extension.exchangeSettings name := by
    rw [hv.exchangeSettings, Function.update_apply]
  refine ⟨?_, fun name => ?_, ?_⟩
  · rw [hv.enabledExchanges]
    refine h.listed.of_iff fun name => ?_
    rw [Enabled, Enabled, hsettings]
    split_ifs with hname
    · rw [hname]
    · rfl
  · rw [lastTradeOf, hsettings, hv.global]
    split_ifs
    · exact le_rfl
    · exact (h.exchange_le name).trans h.global_le
  · rw [hv.global, hv.timestamp]

theorem engage_stamped (h : engage morpho exchanges w c exchangeName = .ok (v, e)) :
    Stamped w v exchangeName := by
  obtain ⟨w₁, w₂, _, _, _, henter, _, _, _, hlever, _, rfl⟩ := engage_eq h
  apply Stamped.updateRebalanceState
  apply Stamped.of_update
  · rw [(invokeManager_eq hlever).1, (invokeManager_eq henter).1]
  · rw [invokeManager_timestamp hlever, invokeManager_timestamp henter]

theorem rebalance_stamped (h : rebalance morpho exchanges w c exchangeName = .ok (v, e)) :
    Stamped w v exchangeName := by
  obtain ⟨w₁, _, _, _, _, _, _, hhandle, _, rfl⟩ := rebalance_eq h
  exact (Stamped.of_invoke (handleRebalance_eq hhandle).1).updateRebalanceState

/-- The time is written also where nothing was traded. -/
theorem iterateRebalance_stamped
    (h : iterateRebalance morpho exchanges w c exchangeName = .ok (v, e)) :
    Stamped w v exchangeName := by
  obtain ⟨_, _, _, _, htrade⟩ := iterateRebalance_eq h
  cases htrade with
  | inl htraded =>
    obtain ⟨w₁, _, hhandle, _, rfl⟩ := htraded
    exact (Stamped.of_invoke (handleRebalance_eq hhandle).1).updateIterateState
  | inr hended =>
    rw [hended.2]
    exact (Stamped.of_update rfl rfl).updateIterateState

theorem ripcord_stamped {transferred : Nat}
    (h : ripcord morpho exchanges w c exchangeName = .ok (v, e, transferred)) :
    Stamped w v exchangeName := by
  obtain ⟨w₁, _, _, _, _, _, _, hinvoke, _, hextension, hworld⟩ := ripcord_eq h
  have hstamped : Stamped w (updateRipcordState w₁ exchangeName) exchangeName :=
    (Stamped.of_invoke hinvoke).updateRipcordState
  refine ⟨?_, ?_, ?_, ?_⟩
  · rw [timestamp, hworld]
    exact hstamped.timestamp
  · rw [hextension, hstamped.enabledExchanges]
  · rw [hextension, hstamped.exchangeSettings]
  · rw [hextension, hstamped.global]

/-! ### Changes of the table -/

/-- The settings of one exchange were written, and the array with them. -/
structure Written (w v : StrategyWorld μ) (exchangeName : String) (settings : ExchangeSettings) :
    Prop where
  exchangeSettings : v.extension.exchangeSettings =
    Function.update w.extension.exchangeSettings exchangeName settings
  global : v.extension.globalLastTradeTimestamp = w.extension.globalLastTradeTimestamp
  timestamp : timestamp v = timestamp w

namespace Written
variable {settings : ExchangeSettings}

theorem enabled_same (h : Written w v exchangeName settings) :
    Enabled v.extension exchangeName ↔ settings.twapMaxTradeSize ≠ 0 := by
  rw [Enabled, h.exchangeSettings, Function.update_self]

theorem enabled_of_ne (h : Written w v exchangeName settings) (name : String)
    (hne : name ≠ exchangeName) : Enabled v.extension name ↔ Enabled w.extension name := by
  rw [Enabled, Enabled, h.exchangeSettings, Function.update_of_ne hne]

theorem lastTradeOf_eq (h : Written w v exchangeName settings) (name : String) :
    lastTradeOf v.extension name = if name = exchangeName then settings.exchangeLastTradeTimestamp
      else lastTradeOf w.extension name := by
  rw [lastTradeOf, h.exchangeSettings, Function.update_apply]
  split_ifs <;> rfl

/-- The table stays one where the array follows the sizes and no time is moved forward. -/
theorem tabled (h : Written w v exchangeName settings) (hw : Tabled w)
    (hlisted : Lists v.extension.enabledExchanges (Enabled v.extension))
    (hlast : settings.exchangeLastTradeTimestamp ≤ lastTradeOf w.extension exchangeName) :
    Tabled v := by
  refine ⟨hlisted, fun name => ?_, ?_⟩
  · rw [h.lastTradeOf_eq, h.global]
    split_ifs
    · exact hlast.trans (hw.exchange_le exchangeName)
    · exact hw.exchange_le name
  · rw [h.global, h.timestamp]
    exact hw.global_le

end Written

/-- A new exchange is appended, with no trade yet. -/
theorem addEnabledExchange_tabled {settings : ExchangeSettings} (h : Tabled w)
    (hv : addEnabledExchange w c exchangeName settings = .ok v) : Tabled v := by
  simp only [addEnabledExchange, bind_eq_ok, require_eq_ok, exists_const,
    validateExchangeSettings_eq_ok, pure_eq_ok] at hv
  obtain ⟨_, _, hnew, hsize, hv⟩ := hv
  have hwritten : Written w v exchangeName { settings with exchangeLastTradeTimestamp := 0 } := by
    rw [← hv]
    exact ⟨rfl, rfl, rfl⟩
  have henabled : v.extension.enabledExchanges = w.extension.enabledExchanges ++ [exchangeName] := by
    rw [← hv]
    rfl
  refine hwritten.tabled h ?_ (Nat.zero_le _)
  rw [henabled]
  exact h.listed.push hwritten.enabled_of_ne (not_not.mpr hnew) (hwritten.enabled_same.mpr hsize)

/-- The last exchange takes the place of the one removed. -/
theorem removeEnabledExchange_tabled (h : Tabled w)
    (hv : removeEnabledExchange w c exchangeName = .ok v) : Tabled v := by
  simp only [removeEnabledExchange, bind_eq_ok, pure_eq_ok] at hv
  obtain ⟨_, _, _, _, l, hremove, hv⟩ := hv
  have hwritten : Written w v exchangeName .empty := by
    rw [← hv]
    exact ⟨rfl, rfl, rfl⟩
  have henabled : v.extension.enabledExchanges = l := by
    rw [← hv]
    rfl
  have hperm : l.Perm (w.extension.enabledExchanges.erase exchangeName) :=
    (ArrayUtils.removeStorage_eq_ok hremove).2
  refine hwritten.tabled h ?_ (Nat.zero_le _)
  rw [henabled]
  refine h.listed.remove hperm hwritten.enabled_of_ne fun hstays => ?_
  exact hwritten.enabled_same.mp hstays rfl

/-- The settings but for the time of the last trade are replaced. -/
theorem updateEnabledExchange_written {settings : ExchangeSettings}
    (hv : updateEnabledExchange w c exchangeName settings = .ok v) :
    Written w v exchangeName
        { settings with exchangeLastTradeTimestamp := lastTradeOf w.extension exchangeName } ∧
      Enabled w.extension exchangeName ∧ settings.twapMaxTradeSize ≠ 0 ∧
      v.extension.enabledExchanges = w.extension.enabledExchanges := by
  simp only [updateEnabledExchange, bind_eq_ok, require_eq_ok, exists_const,
    validateExchangeSettings_eq_ok, pure_eq_ok] at hv
  obtain ⟨_, _, hold, hsize, rfl⟩ := hv
  exact ⟨⟨rfl, rfl, rfl⟩, hold, hsize, rfl⟩

theorem updateEnabledExchange_tabled {settings : ExchangeSettings} (h : Tabled w)
    (hv : updateEnabledExchange w c exchangeName settings = .ok v) : Tabled v := by
  obtain ⟨hwritten, hold, hsize, henabled⟩ := updateEnabledExchange_written hv
  refine hwritten.tabled h ?_ le_rfl
  rw [henabled]
  exact h.listed.keep hwritten.enabled_of_ne (iff_of_true (hwritten.enabled_same.mpr hsize) hold)

/-- No exchange loses the time of its last trade when settings are updated. -/
theorem updateEnabledExchange_lastTradeOf {settings : ExchangeSettings}
    (hv : updateEnabledExchange w c exchangeName settings = .ok v) (name : String) :
    lastTradeOf v.extension name = lastTradeOf w.extension name := by
  rw [(updateEnabledExchange_written hv).1.lastTradeOf_eq]
  split_ifs with hname
  · rw [hname]
  · rfl

/-! ### Runs -/

/-- Time does not go back. -/
def Forward (r : Recorded μ) : Action μ → Prop
  | .elsewhere _ world _ _ => timestamp r.world ≤ world.rest.others.timestamp
  | _ => True

theorem step_tabled {a : Action μ} {executed : Option Executed} {r : Recorded μ}
    (h : Tabled r.world) (hforward : Forward r a)
    (hstep : step morpho exchanges r.world a = .ok (v, executed)) : Tabled v := by
  cases a with
  | engage c name =>
    simp only [step, bind_eq_ok, pure_eq_ok, Prod.mk.injEq] at hstep
    obtain ⟨⟨_, _⟩, hcall, rfl, _⟩ := hstep
    exact h.stamp (engage_stamped hcall)
  | rebalance c name =>
    simp only [step, bind_eq_ok, pure_eq_ok, Prod.mk.injEq] at hstep
    obtain ⟨⟨_, _⟩, hcall, rfl, _⟩ := hstep
    exact h.stamp (rebalance_stamped hcall)
  | iterateRebalance c name =>
    simp only [step, bind_eq_ok, pure_eq_ok, Prod.mk.injEq] at hstep
    obtain ⟨⟨_, _⟩, hcall, rfl, _⟩ := hstep
    exact h.stamp (iterateRebalance_stamped hcall)
  | ripcord c name =>
    simp only [step, bind_eq_ok, pure_eq_ok, Prod.mk.injEq] at hstep
    obtain ⟨⟨_, _, _⟩, hcall, rfl, _⟩ := hstep
    exact h.stamp (ripcord_stamped hcall)
  | disengage c name =>
    simp only [step, bind_eq_ok, pure_eq_ok, Prod.mk.injEq] at hstep
    obtain ⟨⟨_, _⟩, hcall, rfl, _⟩ := hstep
    obtain ⟨_, _, _, _, hinvoke, _⟩ := disengage_eq hcall
    exact h.of_same (invokeManager_same hinvoke)
  | setOverrideNoRebalanceInProgress c override =>
    simp only [step, setOverrideNoRebalanceInProgress, bind_eq_ok, pure_eq_ok, Prod.mk.injEq] at hstep
    obtain ⟨_, ⟨_, _, rfl⟩, rfl, _⟩ := hstep
    exact h.of_same ⟨rfl, rfl, rfl, le_rfl⟩
  | setMethodologySettings c newSettings =>
    simp only [step, bind_eq_ok, pure_eq_ok, Prod.mk.injEq] at hstep
    obtain ⟨_, hcall, rfl, _⟩ := hstep
    refine h.of_same (setSettings_same ?_ hcall)
    exact fun _ => ⟨rfl, rfl, rfl⟩
  | setExecutionSettings c newSettings =>
    simp only [step, bind_eq_ok, pure_eq_ok, Prod.mk.injEq] at hstep
    obtain ⟨_, hcall, rfl, _⟩ := hstep
    refine h.of_same (setSettings_same ?_ hcall)
    exact fun _ => ⟨rfl, rfl, rfl⟩
  | setIncentiveSettings c newSettings =>
    simp only [step, bind_eq_ok, pure_eq_ok, Prod.mk.injEq] at hstep
    obtain ⟨_, hcall, rfl, _⟩ := hstep
    refine h.of_same (setSettings_same ?_ hcall)
    exact fun _ => ⟨rfl, rfl, rfl⟩
  | addEnabledExchange c name settings =>
    simp only [step, bind_eq_ok, pure_eq_ok, Prod.mk.injEq] at hstep
    obtain ⟨_, hcall, rfl, _⟩ := hstep
    exact addEnabledExchange_tabled h hcall
  | removeEnabledExchange c name =>
    simp only [step, bind_eq_ok, pure_eq_ok, Prod.mk.injEq] at hstep
    obtain ⟨_, hcall, rfl, _⟩ := hstep
    exact removeEnabledExchange_tabled h hcall
  | updateEnabledExchange c name settings =>
    simp only [step, bind_eq_ok, pure_eq_ok, Prod.mk.injEq] at hstep
    obtain ⟨_, hcall, rfl, _⟩ := hstep
    exact updateEnabledExchange_tabled h hcall
  | withdrawEtherBalance c =>
    simp only [step, withdrawEtherBalance, bind_eq_ok, pure_eq_ok, Prod.mk.injEq] at hstep
    obtain ⟨_, ⟨_, _, _, _, rfl⟩, rfl, _⟩ := hstep
    exact h.of_same ⟨rfl, rfl, rfl, le_rfl⟩
  | updateCallerStatus c callers statuses =>
    simp only [step, updateCallerStatus, bind_eq_ok, pure_eq_ok, Prod.mk.injEq] at hstep
    obtain ⟨_, ⟨_, _, _, _, _, _, _, _, _, _, rfl⟩, rfl, _⟩ := hstep
    exact h.of_same ⟨rfl, rfl, rfl, le_rfl⟩
  | updateAnyoneCallable c status =>
    simp only [step, updateAnyoneCallable, bind_eq_ok, pure_eq_ok, Prod.mk.injEq] at hstep
    obtain ⟨_, ⟨_, _, rfl⟩, rfl, _⟩ := hstep
    exact h.of_same ⟨rfl, rfl, rfl, le_rfl⟩
  | elsewhere manager world oraclePrice ether =>
    simp only [step, pure_eq_ok, Prod.mk.injEq] at hstep
    obtain ⟨rfl, _⟩ := hstep
    exact h.of_same ⟨rfl, rfl, rfl, hforward⟩

/-! ### Deployment -/

/-- The table while the constructor fills it: the names to come are not enabled yet. -/
structure Filling (x : StrategyExtension) (entries : List (String × ExchangeSettings)) : Prop where
  listed : Lists x.enabledExchanges (Enabled x)
  fresh : ∀ entry ∈ entries, ¬Enabled x entry.1
  nodup : (entries.map Prod.fst).Nodup
  untraded : ∀ name, lastTradeOf x name = 0
  zero : ∀ entry ∈ entries, entry.2.exchangeLastTradeTimestamp = 0
  global : x.globalLastTradeTimestamp = 0

theorem enableExchange_filling {x y : StrategyExtension} {entry : String × ExchangeSettings}
    {rest : List (String × ExchangeSettings)} (h : Filling x (entry :: rest))
    (hy : enableExchange x entry = .ok y) : Filling y rest := by
  obtain ⟨hsize, rfl⟩ := enableExchange_eq hy
  have hnodup := List.nodup_cons.mp h.nodup
  have hoff (name : String) (hne : name ≠ entry.1) :
      Function.update x.exchangeSettings entry.1 entry.2 name = x.exchangeSettings name :=
    Function.update_of_ne hne _ _
  refine ⟨?_, fun other hother => ?_, hnodup.2, fun name => ?_,
    fun other hother => h.zero other (List.mem_cons_of_mem _ hother), h.global⟩
  · apply h.listed.push
    · intro name hne
      simp only [Enabled, hoff name hne]
    · exact h.fresh entry List.mem_cons_self
    · simpa [Enabled] using hsize
  · have hne : other.1 ≠ entry.1 := by
      intro heq
      exact hnodup.1 (heq ▸ List.mem_map_of_mem hother)
    simp only [Enabled, hoff other.1 hne]
    exact h.fresh other (List.mem_cons_of_mem _ hother)
  · by_cases hname : name = entry.1
    · rw [hname]
      simpa [lastTradeOf] using h.zero entry List.mem_cons_self
    · simp only [lastTradeOf, hoff name hname]
      exact h.untraded name

theorem deploy_tabled {self : Address} {strategy : ContractSettings}
    {methodology : MethodologySettings} {execution : ExecutionSettings}
    {incentive : IncentiveSettings} {names : List String} {settings : List ExchangeSettings}
    (hnodup : names.Nodup) (hzero : ∀ s ∈ settings, s.exchangeLastTradeTimestamp = 0)
    (h : deploy self strategy methodology execution incentive names settings = .ok w.extension) :
    Tabled w := by
  simp only [deploy, bind_eq_ok, require_eq_ok, exists_const, pure_eq_ok] at h
  obtain ⟨hlength, x, hruns, _, _, rfl⟩ := h
  have hnames : (names.zip settings).map Prod.fst = names := List.map_fst_zip hlength
  have hfilled := runs_induction Filling (fun _ _ _ _ h ht => enableExchange_filling h ht)
    (⟨⟨List.nodup_nil, fun name => by simp [Enabled, ExchangeSettings.empty]⟩,
      fun _ _ => by simp [Enabled, ExchangeSettings.empty], by rw [hnames]; exact hnodup,
      fun _ => rfl, fun entry hentry => hzero _ (List.of_mem_zip hentry).2, rfl⟩) hruns
  refine ⟨hfilled.listed, fun name => ?_, ?_⟩
  · rw [hfilled.untraded name]
    exact Nat.zero_le _
  · rw [hfilled.global]
    exact Nat.zero_le _

/-- **The table of exchanges over every run.** From a deployment with distinct names and no trade
before, while time does not go back, the table holds, and an update keeps every time. -/
theorem exchanges_tabled {self : Address} {strategy : ContractSettings}
    {methodology : MethodologySettings} {execution : ExecutionSettings}
    {incentive : IncentiveSettings} {names : List String} {settings : List ExchangeSettings}
    {actions : List (Action μ)} {r : Recorded μ}
    (hnodup : names.Nodup) (hzero : ∀ s ∈ settings, s.exchangeLastTradeTimestamp = 0)
    (hdeploy : deploy self strategy methodology execution incentive names settings = .ok w.extension)
    (htime : Along (record morpho exchanges) Forward ⟨w, none⟩ actions)
    (hr : runs (record morpho exchanges) ⟨w, none⟩ actions = .ok r) :
    Tabled r.world ∧ ∀ c name newSettings v, updateEnabledExchange r.world c name newSettings = .ok v →
      ∀ other, lastTradeOf v.extension other = lastTradeOf r.world.extension other := by
  refine ⟨?_, fun c name newSettings v hv => updateEnabledExchange_lastTradeOf hv⟩
  refine runs_induction_along (fun r _ => Tabled r.world) (fun s a _ t h hC ht => ?_)
    (deploy_tabled hnodup hzero hdeploy) htime hr
  simp only [record, bind_eq_ok, pure_eq_ok] at ht
  obtain ⟨⟨v, executed⟩, hstep, rfl⟩ := ht
  exact step_tabled h hC hstep

/-! A keeper trades, and the operator changes the exchanges. -/

def exampleOperator : Caller := ⟨10, 10⟩

def exampleKeeper : Caller := ⟨20, 20⟩

def exampleActions : List (Action Ledger) :=
  [.ripcord exampleKeeper "exchange", .removeEnabledExchange exampleOperator "other",
    .addEnabledExchange exampleOperator "third" ⟨10 ^ 21, 7, 0, [], []⟩,
    .updateEnabledExchange exampleOperator "exchange" ⟨10 ^ 22, 3, 10 ^ 24, [], []⟩]

theorem exchanges_tabled_example : ∃ w r,
    exampleStrategy 5000 0 (3 * 10 ^ 24) (2 * 10 ^ 24) = .ok w ∧
    runs (record reference MorphoLeverageModule.exampleExchange) ⟨w, none⟩ exampleActions = .ok r ∧
    r.world.extension.enabledExchanges = ["exchange", "third"] ∧
    lastTradeOf r.world.extension "exchange" = 5000 ∧ Tabled r.world := by
  have h : (do
      let w ← exampleStrategy 5000 0 (3 * 10 ^ 24) (2 * 10 ^ 24)
      let r ← runs (record reference MorphoLeverageModule.exampleExchange) ⟨w, none⟩ exampleActions
      require (r.world.extension.enabledExchanges = ["exchange", "third"] ∧
        lastTradeOf r.world.extension "exchange" = 5000) "") = .ok () := by
    decide +kernel
  simp only [bind_eq_ok, require_eq_ok] at h
  obtain ⟨w, hw, r, hr, henabled, hlast⟩ := h
  have htime : Along (record reference MorphoLeverageModule.exampleExchange) Forward ⟨w, none⟩
      exampleActions := along_of_forall (by simp [exampleActions, Forward]) _
  have htabled := (exchanges_tabled (by decide) (by decide) (exampleStrategy_deployed hw) htime hr).1
  exact ⟨w, r, hw, hr, henabled, hlast, htabled⟩

end MorphoLeverageStrategyExtension

end IndexProtocol
