import IndexProtocol.Global.Optimistic

/-! Whether the global optimistic extension keeps its products apart.

The oracle of one product keeps its word: its ids are new, and a dispute calls
the extension back before the assertion is settled. Everybody else does as they
like, and every call that leaves the extension may come back. -/
namespace IndexProtocol
open Evm Optimistic

set_option linter.unusedSectionVars false

namespace GlobalOptimisticAuctionRebalanceExtension

/-- What is hashed. -/
abbrev Key := Address × Rebalance × Bool

inductive Event where
  | proposed (key : Key) (assertionId : Nat)
  | started (key : Key) (assertionId : Nat)
  deriving DecidableEq

/-- The ids of the oracle that keeps its word. -/
structure OracleLog where
  asserted : List Nat
  disputed : List Nat
  settled : List Nat

structure Recorded (η ω : Type) where
  world : GlobalOptimisticWorld η ω
  log : OracleLog
  /-- The latest first. -/
  events : List Event

/-- An oracle gives an id. -/
def AssertsTruth (honest oracle : Address) (assertionId : Nat) (before after : OracleLog) : Prop :=
  if oracle = honest then
    assertionId ≠ 0 ∧ assertionId ∉ before.asserted ∧
      after = { before with asserted := assertionId :: before.asserted }
  else after = before

/-- An oracle answers for an id. -/
def Settles (honest oracle : Address) (assertionId : Nat) (before after : OracleLog) : Prop :=
  if oracle = honest then after = { before with settled := assertionId :: before.settled }
  else after = before

variable {η ω : Type} [DecidableEq η] [Zero η] (e : Surroundings ω) (hash : Key → η)

section Runs
variable (product honest : Address) (Clear : Recorded η ω → Address → Nat → Prop)

/-- What anybody may do with the extension while the oracle of `product` is `honest`. A call that
the extension makes is followed by all that happens until it returns. `Clear` holds when a
proposal is written. -/
inductive Runs : Recorded η ω → Recorded η ω → Prop
  | refl (r : Recorded η ω) : Runs r r
  | setProductSettings {r s : Recorded η ω} {w : GlobalOptimisticWorld η ω} {sender p : Address}
      {params : OptimisticRebalanceParams} {rulesHash : Nat} (before : Runs r s)
      (hword : p = product → params.optimisticOracleV3 = honest)
      (hset : setProductSettings e s.world sender p params rulesHash = .ok w) :
      Runs r { s with world := w }
  | initializeExtension {r s : Recorded η ω} {w : GlobalOptimisticWorld η ω}
      {sender manager : Address} (before : Runs r s)
      (hset : initializeExtension e s.world sender manager = .ok w) :
      Runs r { s with world := w }
  | removeExtension {r s : Recorded η ω} {w : GlobalOptimisticWorld η ω} {sender : Address}
      (before : Runs r s) (hset : removeExtension e s.world sender = .ok w) :
      Runs r { s with world := w }
  | proposeRebalance {r s t u : Recorded η ω} {w : GlobalOptimisticWorld η ω} {log : OracleLog}
      {sender p : Address} {rebalance : Rebalance} {lock : Bool} {assertionId : Nat}
      (before : Runs r s)
      (hbegin : beginProposal e hash s.world sender p rebalance lock = .ok w)
      (pulling : Runs { s with world := w } t)
      (hid : AssertsTruth honest (s.world.extension.oracle p) assertionId t.log log)
      (asserting : Runs { t with log := log } u)
      (hclear : Clear u p assertionId) :
      Runs r ⟨endProposal hash u.world p rebalance lock assertionId, u.log,
        .proposed (p, rebalance, lock) assertionId :: u.events⟩
  | startRebalance {r s u : Recorded η ω} {w v : GlobalOptimisticWorld η ω} {log : OracleLog}
      {p : Address} {rebalance : Rebalance} {lock : Bool} (before : Runs r s)
      (hbegin : beginStart hash s.world p rebalance lock = .ok w)
      (hid : Settles honest (s.world.extension.oracle p) (idOf hash s.world p rebalance lock)
        s.log log)
      (settling : Runs
        ⟨w, log, .started (p, rebalance, lock) (idOf hash s.world p rebalance lock) :: s.events⟩ u)
      (hend : endStart e u.world p rebalance lock = .ok v) :
      Runs r { u with world := v }
  | assertionDisputedCallback {r s : Recorded η ω} {w : GlobalOptimisticWorld η ω}
      {sender : Address} {assertionId : Nat} (before : Runs r s) (hword : sender ≠ honest)
      (hcall : assertionDisputedCallback e s.world sender assertionId = .ok w) :
      Runs r { s with world := w }
  | disputeAssertion {r s : Recorded η ω} {w : GlobalOptimisticWorld η ω} {assertionId : Nat}
      (before : Runs r s) (hknown : assertionId ∈ s.log.asserted)
      (hnew : assertionId ∉ s.log.disputed) (hopen : assertionId ∉ s.log.settled)
      (hcall : assertionDisputedCallback e s.world honest assertionId = .ok w) :
      Runs r ⟨w, { s.log with disputed := assertionId :: s.log.disputed }, s.events⟩
  | assertElsewhere {r s : Recorded η ω} {log : OracleLog} {assertionId : Nat} (before : Runs r s)
      (hid : AssertsTruth honest honest assertionId s.log log) : Runs r { s with log := log }
  | settleElsewhere {r s : Recorded η ω} {log : OracleLog} {assertionId : Nat} (before : Runs r s)
      (hid : Settles honest honest assertionId s.log log) : Runs r { s with log := log }
  | elsewhere {r s : Recorded η ω} {others : ω} (before : Runs r s) :
      Runs r { s with world := { s.world with others := others } }

end Runs

/-- The id of the last proposal of a rebalance, if it was not started since. -/
def standing (key : Key) : List Event → Option Nat
  | [] => none
  | .proposed proposed assertionId :: earlier =>
    if proposed = key then some assertionId else standing key earlier
  | .started started _ :: earlier => if started = key then none else standing key earlier

/-- Every start of a product uses up the last proposal with its parameters. -/
def Owned (product : Address) : List Event → Prop
  | [] => True
  | .proposed _ _ :: earlier => Owned product earlier
  | .started key assertionId :: earlier =>
    (key.1 = product → standing key earlier = some assertionId) ∧ Owned product earlier

/-- No start of a disputed proposal, each start of its own, and none twice. -/
structure Safe (product : Address) (r : Recorded η ω) : Prop where
  undisputed : ∀ key assertionId, key.1 = product → Event.started key assertionId ∈ r.events →
    assertionId ∉ r.log.disputed
  owned : Owned product r.events
  once : ∀ key assertionId, key.1 = product →
    r.events.count (.started key assertionId) ≤ r.events.count (.proposed key assertionId)

/-- A proposal of the product stands under the id. -/
def Stands (x : GlobalOptimisticAuctionRebalanceExtension η) (product : Address)
    (assertionId : Nat) : Prop :=
  assertionId ≠ 0 ∧ (x.proposedProduct assertionId).product = product ∧
    x.assertionIds (x.proposedProduct assertionId).proposalHash = assertionId

/-- Another product's proposal overwrites none of the product, and an assertion of the product is
not disputed before its proposal is written. -/
def Apart (product : Address) (r : Recorded η ω) (p : Address) (assertionId : Nat) : Prop :=
  if p = product then assertionId ∉ r.log.disputed
  else ¬Stands r.world.extension product assertionId

variable {e hash} {product honest : Address} {r t u : Recorded η ω} {w v : GlobalOptimisticWorld η ω}
  {x : GlobalOptimisticAuctionRebalanceExtension η} {key : Key} {assertionId : Nat}
  {Clear : Recorded η ω → Address → Nat → Prop}

/-! ### What holds in every state of a run -/

/-- A proposal of the product that stands is written under its id, which its oracle gave and
nobody disputed. -/
structure Sound (hash : Key → η) (product honest : Address) (r : Recorded η ω) : Prop where
  oracle : r.world.extension.oracle product ≠ 0 → r.world.extension.oracle product = honest
  written : ∀ key, key.1 = product → r.world.extension.assertionIds (hash key) ≠ 0 →
    r.world.extension.proposedProduct (r.world.extension.assertionIds (hash key)) =
      ⟨hash key, product⟩
  given : ∀ key, key.1 = product → r.world.extension.assertionIds (hash key) ≠ 0 →
    r.world.extension.assertionIds (hash key) ∈ r.log.asserted
  undisputed : ∀ key, key.1 = product → r.world.extension.assertionIds (hash key) ≠ 0 →
    r.world.extension.assertionIds (hash key) ∉ r.log.disputed
  standing : ∀ key, key.1 = product → r.world.extension.assertionIds (hash key) ≠ 0 →
    standing key r.events = some (r.world.extension.assertionIds (hash key))
  asked : ∀ key, key.1 = product → r.world.extension.assertionIds (hash key) ≠ 0 →
    r.world.extension.oracle product = honest
  started : ∀ key assertionId, key.1 = product → Event.started key assertionId ∈ r.events →
    assertionId ∈ r.log.settled ∧ assertionId ∉ r.log.disputed
  owned : Owned product r.events

/-- One for an id that stands. -/
def stood (key : Key) (assertionId : Nat) (events : List Event) : Nat :=
  if standing key events = some assertionId then 1 else 0

/-- A start uses up a proposal. -/
theorem Owned.once {events : List Event} (h : Owned product events) (hkey : key.1 = product) :
    events.count (.started key assertionId) + stood key assertionId events ≤
      events.count (.proposed key assertionId) := by
  induction events with
  | nil => exact Nat.le_refl 0
  | cons event earlier ih =>
    cases event with
    | proposed k id =>
      have hother : Event.proposed k id ≠ .started key assertionId := nofun
      rw [List.count_cons_of_ne hother]
      by_cases hsame : k = key ∧ id = assertionId
      · -- one proposal more, which stands
        obtain ⟨rfl, rfl⟩ := hsame
        rw [List.count_cons_self, stood, standing, if_pos rfl, if_pos rfl]
        have := ih h
        omega
      · rw [List.count_cons_of_ne fun heq => hsame (Event.proposed.inj heq)]
        have hstood : stood key assertionId (.proposed k id :: earlier) ≤
            stood key assertionId earlier := by
          unfold stood
          rw [standing]
          by_cases hk : k = key
          · rw [if_pos hk, if_neg fun hid => hsame ⟨hk, Option.some.inj hid⟩]
            exact Nat.zero_le _
          · rw [if_neg hk]
        have := ih h
        omega
    | started k id =>
      have hother : Event.started k id ≠ .proposed key assertionId := nofun
      rw [List.count_cons_of_ne hother]
      obtain ⟨howned, hrest⟩ := h
      by_cases hk : k = key
      · -- nothing stands any more
        subst hk
        have hstood : stood k assertionId (.started k id :: earlier) = 0 := by
          rw [stood, standing, if_pos rfl, if_neg nofun]
        rw [hstood]
        by_cases hid : id = assertionId
        · rw [hid, List.count_cons_self]
          have hstood : stood k assertionId earlier = 1 := if_pos (hid ▸ howned hkey)
          have := ih hrest
          omega
        · rw [List.count_cons_of_ne fun heq => hid (Event.started.inj heq).2]
          have := ih hrest
          omega
      · rw [List.count_cons_of_ne fun heq => hk (Event.started.inj heq).1, stood, standing,
          if_neg hk]
        exact ih hrest

theorem Sound.safe (h : Sound hash product honest r) : Safe product r :=
  ⟨fun key assertionId hkey hin => (h.started key assertionId hkey hin).2, h.owned,
    fun _ _ hkey => (Nat.le_add_right _ _).trans (h.owned.once hkey)⟩

/-- What a step that proposes nothing leaves of a product: its oracle, fewer proposals. -/
structure Fewer (hash : Key → η) (product honest : Address) (w v : GlobalOptimisticWorld η ω) :
    Prop where
  oracle : v.extension.oracle product = w.extension.oracle product ∨
    v.extension.oracle product = honest
  ids : ∀ key, key.1 = product → v.extension.assertionIds (hash key) ≠ 0 →
    v.extension.assertionIds (hash key) = w.extension.assertionIds (hash key)
  written : ∀ key, key.1 = product → v.extension.assertionIds (hash key) ≠ 0 →
    v.extension.proposedProduct (w.extension.assertionIds (hash key)) =
      w.extension.proposedProduct (w.extension.assertionIds (hash key))

theorem fewer_of_same (hsettings : v.extension.productSettings = w.extension.productSettings)
    (hids : v.extension.assertionIds = w.extension.assertionIds)
    (hproposed : v.extension.proposedProduct = w.extension.proposedProduct) :
    Fewer hash product honest w v := by
  refine ⟨.inl ?_, fun key _ _ => congrFun hids _, fun key _ _ => congrFun hproposed _⟩
  rw [oracle, hsettings]
  rfl

/-- A step that writes no proposal. -/
theorem Sound.of_fewer (h : Sound hash product honest r)
    (hv : Fewer hash product honest r.world v) : Sound hash product honest { r with world := v } := by
  have horacle : v.extension.oracle product ≠ 0 → v.extension.oracle product = honest := by
    cases hv.oracle with
    | inl hsame =>
      rw [hsame]
      exact h.oracle
    | inr hhonest => exact fun _ => hhonest
  refine ⟨horacle, fun key hkey hset => ?_, fun key hkey hset => ?_, fun key hkey hset => ?_,
    fun key hkey hset => ?_, fun key hkey hset => ?_, h.started, h.owned⟩
  all_goals
    dsimp only at hset ⊢
    have hid := hv.ids key hkey hset
    have hwritten := hv.written key hkey hset
    rw [hid] at hset
  · rw [hid, hwritten]
    exact h.written key hkey hset
  · rw [hid]
    exact h.given key hkey hset
  · rw [hid]
    exact h.undisputed key hkey hset
  · rw [hid]
    exact h.standing key hkey hset
  · cases hv.oracle with
    | inl hsame => exact hsame.trans (h.asked key hkey hset)
    | inr hhonest => exact hhonest

/-- The oracle gives ids and settles. -/
theorem Sound.of_log {log : OracleLog} (h : Sound hash product honest r)
    (hdisputed : log.disputed = r.log.disputed) (hsettled : r.log.settled ⊆ log.settled)
    (hasserted : r.log.asserted ⊆ log.asserted) :
    Sound hash product honest { r with log := log } := by
  refine ⟨h.oracle, h.written, fun key hkey hset => hasserted (h.given key hkey hset),
    fun key hkey hset => ?_, h.standing, h.asked, fun key id hkey hin => ?_, h.owned⟩
  · dsimp only
    rw [hdisputed]
    exact h.undisputed key hkey hset
  · obtain ⟨hin, hidle⟩ := h.started key id hkey hin
    dsimp only
    rw [hdisputed]
    exact ⟨hsettled hin, hidle⟩

theorem deleteProposal_assertionIds {g : η}
    (hset : (x.deleteProposal assertionId).assertionIds g ≠ 0) :
    g ≠ (x.proposedProduct assertionId).proposalHash ∧
      (x.deleteProposal assertionId).assertionIds g = x.assertionIds g := by
  by_cases hsame : g = (x.proposedProduct assertionId).proposalHash
  · refine absurd ?_ hset
    rw [hsame]
    exact Function.update_self ..
  · exact ⟨hsame, Function.update_of_ne hsame ..⟩

/-- A proposal of the product that a deletion leaves does not stand under the id. -/
theorem Sound.deleted (h : Sound hash product honest r) (hkey : key.1 = product)
    (hset : (r.world.extension.deleteProposal assertionId).assertionIds (hash key) ≠ 0) :
    r.world.extension.assertionIds (hash key) ≠ assertionId := by
  obtain ⟨hne, hkept⟩ := deleteProposal_assertionIds hset
  intro hid
  refine hne ?_
  rw [← hid, h.written key hkey (hkept ▸ hset)]

theorem Sound.fewer_of_deleted (h : Sound hash product honest r) (assertionId : Nat) :
    Fewer hash product honest r.world
      { r.world with extension := r.world.extension.deleteProposal assertionId } := by
  refine ⟨.inl rfl, fun key _ hset => (deleteProposal_assertionIds hset).2, fun key hkey hset => ?_⟩
  exact Function.update_of_ne (h.deleted hkey hset) ..

theorem assertsTruth_log {oracle : Address} {before after : OracleLog}
    (h : AssertsTruth honest oracle assertionId before after) :
    after.disputed = before.disputed ∧ before.settled ⊆ after.settled ∧
      before.asserted ⊆ after.asserted := by
  unfold AssertsTruth at h
  split at h
  · obtain ⟨_, _, rfl⟩ := h
    exact ⟨rfl, List.Subset.refl _, List.subset_cons_self ..⟩
  · rw [h]
    exact ⟨rfl, List.Subset.refl _, List.Subset.refl _⟩

theorem settles_log {oracle : Address} {before after : OracleLog}
    (h : Settles honest oracle assertionId before after) :
    after.disputed = before.disputed ∧ before.settled ⊆ after.settled ∧
      before.asserted ⊆ after.asserted := by
  unfold Settles at h
  split at h <;> rw [h]
  · exact ⟨rfl, List.subset_cons_self .., List.Subset.refl _⟩
  · exact ⟨rfl, List.Subset.refl _, List.Subset.refl _⟩

/-- A dispute, which leaves nothing under the id. -/
theorem Sound.disputed (h : Sound hash product honest r) (hopen : assertionId ∉ r.log.settled)
    (hcall : assertionDisputedCallback e r.world honest assertionId = .ok w) :
    Sound hash product honest
      ⟨w, { r.log with disputed := assertionId :: r.log.disputed }, r.events⟩ := by
  rw [assertionDisputedCallback_eq hcall]
  have hleft := h.of_fewer (h.fewer_of_deleted assertionId)
  refine ⟨hleft.oracle, hleft.written, hleft.given, fun key hkey hset hin => ?_, hleft.standing,
    hleft.asked, fun key id hkey hin => ?_, h.owned⟩
  · obtain ⟨_, hkept⟩ := deleteProposal_assertionIds hset
    cases List.mem_cons.mp hin with
    | inl hnow => exact h.deleted hkey hset (hkept.symm.trans hnow)
    | inr hbefore => exact hleft.undisputed key hkey hset hbefore
  · obtain ⟨hsettled, hidle⟩ := h.started key id hkey hin
    refine ⟨hsettled, fun hin => ?_⟩
    cases List.mem_cons.mp hin with
    | inl hnow => exact hopen (hnow ▸ hsettled)
    | inr hbefore => exact hidle hbefore

/-- What a start finds and leaves. -/
theorem beginStart_eq {p : Address} {rebalance : Rebalance} {lock : Bool}
    (h : beginStart hash w p rebalance lock = .ok v) : idOf hash w p rebalance lock ≠ 0 ∧
      v = { w with extension := w.extension.deleteProposal (idOf hash w p rebalance lock) } := by
  simp only [beginStart, bind_eq_ok, require_eq_ok, pure_eq_ok] at h
  obtain ⟨_, hset, rfl⟩ := h
  exact ⟨hset, rfl⟩

/-- A start, whichever product it is of. -/
theorem Sound.start {p : Address} {rebalance : Rebalance} {lock : Bool} {log : OracleLog}
    (h : Sound hash product honest r)
    (hbegin : beginStart hash r.world p rebalance lock = .ok w)
    (hid : Settles honest (r.world.extension.oracle p) (idOf hash r.world p rebalance lock)
      r.log log) :
    Sound hash product honest
      ⟨w, log, .started (p, rebalance, lock) (idOf hash r.world p rebalance lock) :: r.events⟩ := by
  obtain ⟨hset, rfl⟩ := beginStart_eq hbegin
  obtain ⟨hdisputed, hsettled, hasserted⟩ := settles_log hid
  have hleft := (h.of_fewer (h.fewer_of_deleted (idOf hash r.world p rebalance lock))).of_log
    hdisputed hsettled hasserted
  refine ⟨hleft.oracle, hleft.written, hleft.given, hleft.undisputed, fun key hkey hset' => ?_,
    hleft.asked, fun key id hkey hin => ?_, fun hp => h.standing (p, rebalance, lock) hp hset,
    h.owned⟩
  · -- the proposal that starts is deleted
    have hne : (p, rebalance, lock) ≠ key := by
      rintro rfl
      obtain ⟨_, hkept⟩ := deleteProposal_assertionIds hset'
      exact h.deleted hkey hset' rfl
    exact (if_neg hne).trans (hleft.standing key hkey hset')
  · cases List.mem_cons.mp hin with
    | inr hbefore => exact hleft.started key id hkey hbefore
    | inl hnow =>
      obtain ⟨rfl, rfl⟩ := Event.started.inj hnow
      have hidle := h.undisputed _ hkey hset
      rw [← hdisputed] at hidle
      refine ⟨?_, hidle⟩
      obtain rfl : p = product := hkey
      rw [Settles, if_pos (h.asked _ rfl hset)] at hid
      rw [hid]
      exact List.mem_cons_self ..

/-- An id that the oracle gave for a proposal that is not written yet. -/
def Reserved (hash : Key → η) (product : Address) (assertionId : Nat) (r : Recorded η ω) : Prop :=
  assertionId ∈ r.log.asserted ∧
    ∀ key, key.1 = product → r.world.extension.assertionIds (hash key) ≠ assertionId

section Proposal
variable {p : Address} {rebalance : Rebalance} {lock : Bool}

/-- A proposal is written under its own id. -/
theorem endProposal_written :
    (endProposal hash w p rebalance lock assertionId).extension.assertionIds
      (hash (p, rebalance, lock)) = assertionId :=
  Function.update_self ..

/-- Every other one stays under its id. -/
theorem endProposal_kept (hinj : Function.Injective hash) (hne : key ≠ (p, rebalance, lock)) :
    (endProposal hash w p rebalance lock assertionId).extension.assertionIds (hash key) =
      w.extension.assertionIds (hash key) :=
  Function.update_of_ne (fun heq => hne (hinj heq)) ..

/-- A proposal of another product is written. -/
theorem Sound.proposeOther (hinj : Function.Injective hash) (h : Sound hash product honest r)
    (hp : p ≠ product) (hclear : ¬Stands r.world.extension product assertionId) :
    Sound hash product honest ⟨endProposal hash r.world p rebalance lock assertionId, r.log,
      .proposed (p, rebalance, lock) assertionId :: r.events⟩ := by
  have hne : ∀ key : Key, key.1 = product → key ≠ (p, rebalance, lock) := by
    rintro key hkey rfl
    exact hp hkey
  have hkept : ∀ key, key.1 = product →
      (endProposal hash r.world p rebalance lock assertionId).extension.assertionIds (hash key) =
        r.world.extension.assertionIds (hash key) :=
    fun key hkey => endProposal_kept hinj (hne key hkey)
  refine ⟨h.oracle, fun key hkey hset => ?_, fun key hkey hset => ?_, fun key hkey hset => ?_,
    fun key hkey hset => ?_, fun key hkey hset => ?_, fun key id hkey hin => ?_, h.owned⟩
  all_goals try rw [hkept key hkey] at hset
  · show (Function.update _ _ _) _ = _
    rw [hkept key hkey]
    have hwritten := h.written key hkey hset
    refine (Function.update_of_ne (fun hid => hclear ?_) ..).trans hwritten
    rw [hid] at hwritten hset
    refine ⟨hset, ?_, ?_⟩
    · rw [hwritten]
    · rw [hwritten]
      exact hid
  · rw [hkept key hkey]
    exact h.given key hkey hset
  · rw [hkept key hkey]
    exact h.undisputed key hkey hset
  · rw [hkept key hkey]
    exact (if_neg (hne key hkey).symm).trans (h.standing key hkey hset)
  · exact h.asked key hkey hset
  · exact h.started key id hkey ((List.mem_cons.mp hin).resolve_left Event.noConfusion)

/-- A proposal of the product is written. -/
theorem Sound.proposeOwn (hinj : Function.Injective hash) (h : Sound hash product honest r)
    (horacle : r.world.extension.oracle product = honest)
    (hreserved : Reserved hash product assertionId r) (hclear : assertionId ∉ r.log.disputed) :
    Sound hash product honest ⟨endProposal hash r.world product rebalance lock assertionId, r.log,
      .proposed (product, rebalance, lock) assertionId :: r.events⟩ := by
  refine ⟨h.oracle, fun key hkey hset => ?_, fun key hkey hset => ?_, fun key hkey hset => ?_,
    fun key hkey hset => ?_, fun _ _ _ => horacle, fun key id hkey hin => ?_, h.owned⟩
  · by_cases hnow : key = (product, rebalance, lock)
    · rw [hnow, endProposal_written]
      exact Function.update_self ..
    · rw [endProposal_kept hinj hnow] at hset ⊢
      exact (Function.update_of_ne (hreserved.2 key hkey) ..).trans (h.written key hkey hset)
  · by_cases hnow : key = (product, rebalance, lock)
    · rw [hnow, endProposal_written]
      exact hreserved.1
    · rw [endProposal_kept hinj hnow] at hset ⊢
      exact h.given key hkey hset
  · by_cases hnow : key = (product, rebalance, lock)
    · rw [hnow, endProposal_written]
      exact hclear
    · rw [endProposal_kept hinj hnow] at hset ⊢
      exact h.undisputed key hkey hset
  · by_cases hnow : key = (product, rebalance, lock)
    · rw [hnow, endProposal_written]
      exact if_pos rfl
    · rw [endProposal_kept hinj hnow] at hset ⊢
      exact (if_neg (Ne.symm hnow)).trans (h.standing key hkey hset)
  · exact h.started key id hkey ((List.mem_cons.mp hin).resolve_left Event.noConfusion)

end Proposal

/-! ### Runs -/

/-- What lasts: the oracle, the ids that it gave, and that those not written by now are not used. -/
structure Grown (hash : Key → η) (product honest : Address) (r t : Recorded η ω) : Prop where
  oracle : r.world.extension.oracle product = honest → t.world.extension.oracle product = honest
  asserted : r.log.asserted ⊆ t.log.asserted
  free : ∀ id, id ≠ 0 → id ∈ r.log.asserted →
    (∀ key, key.1 = product → r.world.extension.assertionIds (hash key) ≠ id) →
    ∀ key, key.1 = product → t.world.extension.assertionIds (hash key) ≠ id

theorem Grown.refl (r : Recorded η ω) : Grown hash product honest r r :=
  ⟨id, List.Subset.refl _, fun _ _ _ hfree => hfree⟩

theorem Grown.trans (hrt : Grown hash product honest r t) (htu : Grown hash product honest t u) :
    Grown hash product honest r u :=
  ⟨fun horacle => htu.oracle (hrt.oracle horacle), fun _ hin => htu.asserted (hrt.asserted hin),
    fun id hid hin hfree => htu.free id hid (hrt.asserted hin) (hrt.free id hid hin hfree)⟩

/-- A step that writes no proposal. -/
theorem grown_of_fewer (hlog : r.log.asserted ⊆ t.log.asserted)
    (h : Fewer hash product honest r.world t.world) : Grown hash product honest r t := by
  refine ⟨fun horacle => ?_, hlog, fun id hid _ hfree key hkey heq => hfree key hkey ?_⟩
  · cases h.oracle with
    | inl hsame => exact hsame.trans horacle
    | inr hhonest => exact hhonest
  · rw [← h.ids key hkey (heq ▸ hid), heq]

theorem Grown.reserved (h : Grown hash product honest r t) (hid : assertionId ≠ 0)
    (hreserved : Reserved hash product assertionId r) : Reserved hash product assertionId t :=
  ⟨h.asserted hreserved.1, h.free assertionId hid hreserved.1 hreserved.2⟩

theorem fewer_of_settings {sender p : Address} {params : OptimisticRebalanceParams}
    {rulesHash : Nat} (hword : p = product → params.optimisticOracleV3 = honest)
    (h : setProductSettings e w sender p params rulesHash = .ok v) :
    Fewer hash product honest w v := by
  simp only [setProductSettings, bind_eq_ok, pure_eq_ok] at h
  obtain ⟨_, _, rfl⟩ := h
  refine ⟨?_, fun _ _ _ => rfl, fun _ _ _ => rfl⟩
  by_cases hp : p = product
  · right
    show (Function.update w.extension.productSettings p ⟨params, rulesHash⟩
      product).optimisticParams.optimisticOracleV3 = honest
    rw [hp, Function.update_self]
    exact hword hp
  · left
    show (Function.update w.extension.productSettings p ⟨params, rulesHash⟩
      product).optimisticParams.optimisticOracleV3 = _
    rw [Function.update_of_ne fun heq => hp heq.symm]
    rfl

theorem initialize_fewer {sender manager : Address}
    (h : initializeExtension e w sender manager = .ok v) : Fewer hash product honest w v := by
  simp only [initializeExtension, bind_eq_ok, pure_eq_ok] at h
  obtain ⟨_, _, rfl⟩ := h
  exact fewer_of_same rfl rfl rfl

theorem fewer_of_remove {sender : Address} (h : removeExtension e w sender = .ok v) :
    Fewer hash product honest w v := by
  simp only [removeExtension, bind_eq_ok, pure_eq_ok] at h
  obtain ⟨_, _, rfl⟩ := h
  exact fewer_of_same rfl rfl rfl

theorem beginProposal_eq {sender p : Address} {rebalance : Rebalance} {lock : Bool}
    (h : beginProposal e hash w sender p rebalance lock = .ok v) :
    w.extension.oracle p ≠ 0 ∧ v.extension = w.extension := by
  simp only [beginProposal, bind_eq_ok, require_eq_ok, pure_eq_ok] at h
  obtain ⟨_, _, _, _, _, horacle, _, _, rfl⟩ := h
  exact ⟨horacle, rfl⟩

theorem endStart_same {p : Address} {rebalance : Rebalance} {lock : Bool}
    (h : endStart e w p rebalance lock = .ok v) : v.extension = w.extension := by
  simp only [endStart, bind_eq_ok, pure_eq_ok] at h
  obtain ⟨_, _, _, _, rfl⟩ := h
  rfl

/-- A step that writes no proposal. -/
theorem Sound.fewer (h : Sound hash product honest r) (hr : Grown hash product honest u r)
    (hv : Fewer hash product honest r.world v) :
    Sound hash product honest { r with world := v } ∧
      Grown hash product honest u { r with world := v } :=
  ⟨h.of_fewer hv, hr.trans (grown_of_fewer (List.Subset.refl _) hv)⟩

/-- What the oracle does leaves the proposals. -/
theorem Sound.log {log : OracleLog} (h : Sound hash product honest r)
    (hr : Grown hash product honest u r)
    (hlog : log.disputed = r.log.disputed ∧ r.log.settled ⊆ log.settled ∧
      r.log.asserted ⊆ log.asserted) :
    Sound hash product honest { r with log := log } ∧
      Grown hash product honest u { r with log := log } :=
  ⟨h.of_log hlog.1 hlog.2.1 hlog.2.2,
    hr.trans (grown_of_fewer hlog.2.2 (fewer_of_same rfl rfl rfl))⟩

/-- The whole of a proposal's call, given what holds of the calls that it makes. -/
theorem Sound.proposeRebalance {s : Recorded η ω} {log : OracleLog} {sender p : Address}
    {rebalance : Rebalance} {lock : Bool} (hinj : Function.Injective hash)
    (hs : Sound hash product honest s)
    (hbegin : beginProposal e hash s.world sender p rebalance lock = .ok w)
    (pulling : Sound hash product honest { s with world := w } →
      Sound hash product honest t ∧ Grown hash product honest { s with world := w } t)
    (hid : AssertsTruth honest (s.world.extension.oracle p) assertionId t.log log)
    (asserting : Sound hash product honest { t with log := log } →
      Sound hash product honest u ∧ Grown hash product honest { t with log := log } u)
    (hclear : Apart product u p assertionId) :
    Sound hash product honest ⟨endProposal hash u.world p rebalance lock assertionId, u.log,
      .proposed (p, rebalance, lock) assertionId :: u.events⟩ ∧
    Grown hash product honest s ⟨endProposal hash u.world p rebalance lock assertionId, u.log,
      .proposed (p, rebalance, lock) assertionId :: u.events⟩ := by
  obtain ⟨hset, hext⟩ := beginProposal_eq hbegin
  obtain ⟨hw, hsw⟩ := hs.fewer (Grown.refl s)
    (fewer_of_same (congrArg _ hext) (congrArg _ hext) (congrArg _ hext))
  obtain ⟨ht, hwt⟩ := pulling hw
  obtain ⟨hlog, hslog⟩ := ht.log (hsw.trans hwt) (assertsTruth_log hid)
  obtain ⟨hu, hlogu⟩ := asserting hlog
  have hsu := hslog.trans hlogu
  by_cases hp : p = product
  · subst hp
    have hasked : s.world.extension.oracle p = honest := hs.oracle hset
    rw [AssertsTruth, if_pos hasked] at hid
    obtain ⟨hne, hnew, rfl⟩ := hid
    have hreserved : Reserved hash p assertionId u :=
      hlogu.reserved hne ⟨List.mem_cons_self .., fun key hkey heq =>
        hnew (heq ▸ ht.given key hkey (heq ▸ hne))⟩
    rw [Apart, if_pos rfl] at hclear
    refine ⟨hu.proposeOwn hinj (hsu.oracle hasked) hreserved hclear, hsu.oracle, hsu.asserted, ?_⟩
    intro id hid hin hfree key hkey heq
    have hfreeu := hsu.free id hid hin hfree key hkey
    -- an id that was given before is not the new one
    change Function.update u.world.extension.assertionIds (hash (p, rebalance, lock)) assertionId
      (hash key) = id at heq
    by_cases hsame : hash key = hash (p, rebalance, lock)
    · rw [hsame, Function.update_self] at heq
      exact hnew ((hsw.trans hwt).asserted (heq ▸ hin))
    · rw [Function.update_of_ne hsame] at heq
      exact hfreeu heq
  · rw [Apart, if_neg hp] at hclear
    refine ⟨hu.proposeOther hinj hp hclear, hsu.oracle, hsu.asserted, ?_⟩
    intro id hid hin hfree key hkey heq
    refine hsu.free id hid hin hfree key hkey ?_
    have hne : hash key ≠ hash (p, rebalance, lock) := by
      intro hsame
      refine hp ?_
      rw [← hkey, hinj hsame]
    exact (Function.update_of_ne hne ..).symm.trans heq

/-- The whole of a start's call, given what holds of the calls that it makes. -/
theorem Sound.startRebalance {s : Recorded η ω} {log : OracleLog} {p : Address}
    {rebalance : Rebalance} {lock : Bool} (hs : Sound hash product honest s)
    (hbegin : beginStart hash s.world p rebalance lock = .ok w)
    (hid : Settles honest (s.world.extension.oracle p) (idOf hash s.world p rebalance lock)
      s.log log)
    (settling : Sound hash product honest ⟨w, log,
        .started (p, rebalance, lock) (idOf hash s.world p rebalance lock) :: s.events⟩ →
      Sound hash product honest u ∧ Grown hash product honest ⟨w, log,
        .started (p, rebalance, lock) (idOf hash s.world p rebalance lock) :: s.events⟩ u)
    (hend : endStart e u.world p rebalance lock = .ok v) :
    Sound hash product honest { u with world := v } ∧
      Grown hash product honest s { u with world := v } := by
  have hext := endStart_same hend
  obtain ⟨hu, hwu⟩ := settling (hs.start hbegin hid)
  obtain ⟨_, rfl⟩ := beginStart_eq hbegin
  refine hu.fewer (Grown.trans ?_ hwu)
    (fewer_of_same (congrArg _ hext) (congrArg _ hext) (congrArg _ hext))
  exact grown_of_fewer (settles_log hid).2.2 (hs.fewer_of_deleted _)

theorem Runs.sound (hinj : Function.Injective hash)
    (hr : Runs e hash product honest (Apart product) r t) (h : Sound hash product honest r) :
    Sound hash product honest t ∧ Grown hash product honest r t := by
  induction hr with
  | refl r => exact ⟨h, Grown.refl r⟩
  | setProductSettings _ hword hset ih =>
    obtain ⟨hs, hrs⟩ := ih h
    exact hs.fewer hrs (fewer_of_settings hword hset)
  | initializeExtension _ hset ih =>
    obtain ⟨hs, hrs⟩ := ih h
    exact hs.fewer hrs (initialize_fewer hset)
  | removeExtension _ hset ih =>
    obtain ⟨hs, hrs⟩ := ih h
    exact hs.fewer hrs (fewer_of_remove hset)
  | proposeRebalance _ hbegin _ hid _ hclear ih pulling asserting =>
    obtain ⟨hs, hrs⟩ := ih h
    obtain ⟨ht, hst⟩ := hs.proposeRebalance hinj hbegin pulling hid asserting hclear
    exact ⟨ht, hrs.trans hst⟩
  | startRebalance _ hbegin hid _ hend ih settling =>
    obtain ⟨hs, hrs⟩ := ih h
    obtain ⟨ht, hst⟩ := hs.startRebalance hbegin hid settling hend
    exact ⟨ht, hrs.trans hst⟩
  | assertionDisputedCallback _ _ hcall ih =>
    obtain ⟨hs, hrs⟩ := ih h
    rw [assertionDisputedCallback_eq hcall]
    exact hs.fewer hrs (hs.fewer_of_deleted _)
  | disputeAssertion _ _ _ hopen hcall ih =>
    obtain ⟨hs, hrs⟩ := ih h
    refine ⟨hs.disputed hopen hcall, hrs.trans (grown_of_fewer (List.Subset.refl _) ?_)⟩
    rw [assertionDisputedCallback_eq hcall]
    exact hs.fewer_of_deleted _
  | assertElsewhere _ hid ih =>
    obtain ⟨hs, hrs⟩ := ih h
    exact hs.log hrs (assertsTruth_log hid)
  | settleElsewhere _ hid ih =>
    obtain ⟨hs, hrs⟩ := ih h
    exact hs.log hrs (settles_log hid)
  | elsewhere _ ih =>
    obtain ⟨hs, hrs⟩ := ih h
    exact hs.fewer hrs (fewer_of_same rfl rfl rfl)

theorem construct_sound {others : ω} {log : OracleLog} :
    Sound hash product honest ⟨⟨construct, others⟩, log, []⟩ :=
  ⟨fun hset => absurd rfl hset, fun _ _ hset => absurd rfl hset, fun _ _ hset => absurd rfl hset,
    fun _ _ hset => absurd rfl hset, fun _ _ hset => absurd rfl hset,
    fun _ _ hset => absurd rfl hset, fun _ _ _ hin => absurd hin List.not_mem_nil, trivial⟩

/-- **Isolation.** Let the oracle of a product keep its word. In every run in which no proposal of
another product is written under an id under which one of the product stands, and no assertion of
the product is disputed before its proposal is written, no start of the product is of a proposal
whose assertion is disputed, and every start uses up a proposal with its parameters. -/
theorem starts_own {others : ω} {log : OracleLog} (hinj : Function.Injective hash)
    (hr : Runs e hash product honest (Apart product) ⟨⟨construct, others⟩, log, []⟩ r) :
    Safe product r :=
  (hr.sound hinj construct_sound).1.safe

/-! Two products, of two managers. The oracle of the second answers what it likes. -/

def exampleSurroundings : Surroundings Unit where
  getMinimumBond _ _ _ := .ok 10
  safeTransferFrom _ _ _ others := .ok others
  safeIncreaseAllowance _ _ _ others := .ok others
  managers :=
    { owner := fun _ _ => .ok 1
      setToken := fun manager _ => .ok (manager + 70)
      operatorAllowlist := fun manager sender _ => .ok (sender + 29 = manager)
      isAllowedAsset := fun _ _ _ => .ok true
      isManager := fun _ _ => true
      initializeExtension := fun _ others => .ok others
      interactManager := fun _ _ others => .ok others }
  getComponents _ _ := [11]
  getAsserter oracle _ _ := if oracle = 21 then 5 else 0

def exampleRebalance : Rebalance where
  quoteAsset := 12
  oldComponents := [11]
  newComponents := [13]
  newComponentsAuctionParams := [⟨10 ^ 18, "adapter", []⟩]
  oldComponentsAuctionParams := [⟨0, "adapter", []⟩]
  rebalanceDuration := 3600
  positionMultiplier := 10 ^ 18

/-- The products 100 and 101 are set up with the oracles 21 and 22. -/
def exampleProducts : Result (GlobalOptimisticWorld Preimage Unit) := do
  let w ← initializeExtension exampleSurroundings ⟨construct, ()⟩ 1 30
  let w ← initializeExtension exampleSurroundings w 1 31
  let w ← setProductSettings exampleSurroundings w 1 100 ⟨12, 7200, 5, 0, 21⟩ 77
  setProductSettings exampleSurroundings w 2 101 ⟨12, 7200, 5, 0, 22⟩ 88

/-- A proposal whose calls do not come back. -/
theorem Runs.proposed {log log' : OracleLog} {events : List Event} {sender p : Address}
    {rebalance : Rebalance} {lock : Bool}
    (hr : Runs e hash product honest Clear r ⟨w, log, events⟩)
    (hbegin : beginProposal e hash w sender p rebalance lock = .ok v)
    (hid : AssertsTruth honest (w.extension.oracle p) assertionId log log')
    (hclear : Clear ⟨v, log', events⟩ p assertionId) :
    Runs e hash product honest Clear r ⟨endProposal hash v p rebalance lock assertionId, log',
      .proposed (p, rebalance, lock) assertionId :: events⟩ :=
  .proposeRebalance hr hbegin (.refl _) hid (.refl _) hclear

/-- A start whose calls do not come back. -/
theorem Runs.started {log log' : OracleLog} {events : List Event} {p : Address}
    {rebalance : Rebalance} {lock : Bool} {y : GlobalOptimisticWorld η ω}
    (hr : Runs e hash product honest Clear r ⟨w, log, events⟩)
    (hbegin : beginStart hash w p rebalance lock = .ok v)
    (hid : Settles honest (w.extension.oracle p) (idOf hash w p rebalance lock) log log')
    (hend : endStart e v p rebalance lock = .ok y) :
    Runs e hash product honest Clear r
      ⟨y, log', .started (p, rebalance, lock) (idOf hash w p rebalance lock) :: events⟩ :=
  .startRebalance hr hbegin hid (.refl _) hend

theorem exampleProducts_runs {w : GlobalOptimisticWorld Preimage Unit}
    {Clear : Recorded Preimage Unit → Address → Nat → Prop} (h : exampleProducts = .ok w) :
    Runs exampleSurroundings Preimage.of 100 21 Clear ⟨⟨construct, ()⟩, ⟨[], [], []⟩, []⟩
      ⟨w, ⟨[], [], []⟩, []⟩ := by
  simp only [exampleProducts, bind_eq_ok] at h
  obtain ⟨_, hfirst, _, hsecond, _, hhonest, hother⟩ := h
  have hstart : Runs exampleSurroundings Preimage.of 100 21 Clear ⟨⟨construct, ()⟩, ⟨[], [], []⟩, []⟩
      ⟨⟨construct, ()⟩, ⟨[], [], []⟩, []⟩ := .refl _
  have hinitialized := (hstart.initializeExtension hfirst).initializeExtension hsecond
  have hset := hinitialized.setProductSettings (fun _ => rfl) hhonest
  exact hset.setProductSettings (fun heq => absurd heq (by decide)) hother

/-- The second product is proposed, and the first one's proposal disputed; it is proposed again, and
starts. -/
theorem starts_own_example : ∃ r : Recorded Preimage Unit,
    Runs exampleSurroundings Preimage.of 100 21 (Apart 100) ⟨⟨construct, ()⟩, ⟨[], [], []⟩, []⟩ r ∧
      r.events = [.started (100, exampleRebalance, false) 8,
        .proposed (100, exampleRebalance, false) 8, .proposed (101, exampleRebalance, false) 9,
        .proposed (100, exampleRebalance, false) 7] ∧
      r.log.disputed = [7] ∧ Safe 100 r := by
  have h : (do
      let w ← exampleProducts
      require (w.extension.oracle 100 = 21) ""
      let v ← beginProposal exampleSurroundings Preimage.of w 5 100 exampleRebalance false
      let v := endProposal Preimage.of v 100 exampleRebalance false 7
      require (v.extension.oracle 101 = 22) ""
      let u ← beginProposal exampleSurroundings Preimage.of v 6 101 exampleRebalance false
      require ((u.extension.proposedProduct 9).product ≠ 100) ""
      let u := endProposal Preimage.of u 101 exampleRebalance false 9
      let t ← assertionDisputedCallback exampleSurroundings u 21 7
      require (t.extension.oracle 100 = 21) ""
      let s ← beginProposal exampleSurroundings Preimage.of t 5 100 exampleRebalance false
      let s := endProposal Preimage.of s 100 exampleRebalance false 8
      require (idOf Preimage.of s 100 exampleRebalance false = 8) ""
      require (s.extension.oracle 100 = 21) ""
      let q ← beginStart Preimage.of s 100 exampleRebalance false
      let _ ← endStart exampleSurroundings q 100 exampleRebalance false
      pure ()) = .ok () := by
    decide +kernel
  simp only [bind_eq_ok, require_eq_ok] at h
  obtain ⟨w, hw, _, horacle, v, hfirst, _, hother, u, hsecond, _, hnone, t, hdispute, _, horacle', s,
    hagain, _, hid, _, horacle'', q, hstart, _, hend, _⟩ := h
  have hset : Runs exampleSurroundings Preimage.of 100 21 (Apart 100)
      ⟨⟨construct, ()⟩, ⟨[], [], []⟩, []⟩ ⟨w, ⟨[], [], []⟩, []⟩ := exampleProducts_runs hw
  have hgiven : AssertsTruth 21 (w.extension.oracle 100) 7 ⟨[], [], []⟩ ⟨[7], [], []⟩ := by
    rw [AssertsTruth, if_pos horacle]
    exact ⟨by decide, by decide, rfl⟩
  have hproposed := hset.proposed hfirst hgiven List.not_mem_nil
  have hanswered : AssertsTruth 21
      ((endProposal Preimage.of v 100 exampleRebalance false 7).extension.oracle 101) 9
      ⟨[7], [], []⟩ ⟨[7], [], []⟩ := by
    rw [AssertsTruth, if_neg (by rw [hother]; decide)]
  have hboth := hproposed.proposed hsecond hanswered fun hstands => hnone hstands.2.1
  have hdisputed := hboth.disputeAssertion (List.mem_singleton.mpr rfl) List.not_mem_nil
    List.not_mem_nil hdispute
  have hgiven' : AssertsTruth 21 (t.extension.oracle 100) 8 ⟨[7], [7], []⟩ ⟨[8, 7], [7], []⟩ := by
    rw [AssertsTruth, if_pos horacle']
    exact ⟨by decide, by decide, rfl⟩
  have hstanding : (8 : Nat) ∉ [7] := by decide
  have hproposed' := hdisputed.proposed hagain hgiven' hstanding
  have hsettled : Settles 21
      ((endProposal Preimage.of s 100 exampleRebalance false 8).extension.oracle 100)
      (idOf Preimage.of (endProposal Preimage.of s 100 exampleRebalance false 8) 100
        exampleRebalance false) ⟨[8, 7], [7], []⟩ ⟨[8, 7], [7], [8]⟩ := by
    rw [Settles, if_pos horacle'', hid]
  have hstarted := hproposed'.started hstart hsettled hend
  rw [hid] at hstarted
  exact ⟨_, hstarted, rfl, rfl, starts_own Preimage.of_injective hstarted⟩

/-- The oracle of the second product answers with the id of the first product's proposal, so a
dispute deletes the second product's proposal, and the first product's starts. -/
theorem starts_disputed : ∃ r : Recorded Preimage Unit,
    Runs exampleSurroundings Preimage.of 100 21 (fun _ _ _ => True)
      ⟨⟨construct, ()⟩, ⟨[], [], []⟩, []⟩ r ∧
      Event.started (100, exampleRebalance, false) 7 ∈ r.events ∧ 7 ∈ r.log.disputed ∧
      ¬Safe 100 r := by
  have h : (do
      let w ← exampleProducts
      require (w.extension.oracle 100 = 21) ""
      let v ← beginProposal exampleSurroundings Preimage.of w 5 100 exampleRebalance false
      let v := endProposal Preimage.of v 100 exampleRebalance false 7
      require (v.extension.oracle 101 = 22) ""
      let u ← beginProposal exampleSurroundings Preimage.of v 6 101 exampleRebalance false
      let u := endProposal Preimage.of u 101 exampleRebalance false 7
      let t ← assertionDisputedCallback exampleSurroundings u 21 7
      require (idOf Preimage.of t 100 exampleRebalance false = 7) ""
      require (t.extension.oracle 100 = 21) ""
      let s ← beginStart Preimage.of t 100 exampleRebalance false
      let _ ← endStart exampleSurroundings s 100 exampleRebalance false
      pure ()) = .ok () := by
    decide +kernel
  simp only [bind_eq_ok, require_eq_ok] at h
  obtain ⟨w, hw, _, horacle, v, hfirst, _, hother, u, hsecond, t, hdispute, _, hid, _, horacle', s,
    hstart, _, hend, _⟩ := h
  have hgiven : AssertsTruth 21 (w.extension.oracle 100) 7 ⟨[], [], []⟩ ⟨[7], [], []⟩ := by
    rw [AssertsTruth, if_pos horacle]
    exact ⟨by decide, by decide, rfl⟩
  have hanswered : AssertsTruth 21
      ((endProposal Preimage.of v 100 exampleRebalance false 7).extension.oracle 101) 7
      ⟨[7], [], []⟩ ⟨[7], [], []⟩ := by
    rw [AssertsTruth, if_neg (by rw [hother]; decide)]
  have hset : Runs exampleSurroundings Preimage.of 100 21 (fun _ _ _ => True)
      ⟨⟨construct, ()⟩, ⟨[], [], []⟩, []⟩ ⟨w, ⟨[], [], []⟩, []⟩ := exampleProducts_runs hw
  have hproposed := (hset.proposed hfirst hgiven trivial).proposed hsecond hanswered trivial
  have hdisputed := hproposed.disputeAssertion (List.mem_singleton.mpr rfl) List.not_mem_nil
    List.not_mem_nil hdispute
  have hsettled : Settles 21 (t.extension.oracle 100)
      (idOf Preimage.of t 100 exampleRebalance false) ⟨[7], [7], []⟩ ⟨[7], [7], [7]⟩ := by
    rw [Settles, if_pos horacle', hid]
  have hstarted := hdisputed.started hstart hsettled hend
  rw [hid] at hstarted
  have hin := List.mem_singleton.mpr (rfl : (7 : Nat) = 7)
  exact ⟨_, hstarted, List.mem_cons_self .., hin,
    fun hsafe => hsafe.undisputed _ 7 rfl (List.mem_cons_self ..) hin⟩

end GlobalOptimisticAuctionRebalanceExtension

end IndexProtocol
