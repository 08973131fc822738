import IndexProtocol.Auction.OptimisticV1

/-! Which rebalances an optimistic extension starts.

The mappings of proposals and assertions are inverse to each other, so a dispute
deletes the proposal that it is about, and a start uses up the proposal that it
carries out. Oracles keep their word here: ids are new, and a dispute whose
callback reverts does not happen. -/
namespace IndexProtocol
open Evm Optimistic

set_option linter.unusedSectionVars false

namespace OptimisticAuctionRebalanceExtensionV1
variable {η ω : Type} [DecidableEq η] [Zero η] {e : Surroundings ω}
  {hash : Address × Rebalance × Bool → η}

/-! ### Proposals and assertions name each other -/

/-- The two mappings are inverse to each other where they are set. -/
structure Linked (x : OptimisticAuctionRebalanceExtensionV1 η) : Prop where
  hash_of_id : ∀ h, x.assertionIds h ≠ 0 → x.assertionIdToProposalHash (x.assertionIds h) = h
  id_of_hash : ∀ id, x.assertionIdToProposalHash id ≠ 0 →
    x.assertionIds (x.assertionIdToProposalHash id) = id
  zero : x.assertionIdToProposalHash 0 = 0

variable {x : OptimisticAuctionRebalanceExtensionV1 η} {w v : OptimisticWorld η ω}
  {r t : Recorded η ω} {sender : Address} {rebalance : Rebalance} {assertionId : Nat} {h : η}

theorem deleteProposal_assertionIds (hset : (x.deleteProposal assertionId).assertionIds h ≠ 0) :
    h ≠ x.assertionIdToProposalHash assertionId ∧
      (x.deleteProposal assertionId).assertionIds h = x.assertionIds h := by
  by_cases hsame : h = x.assertionIdToProposalHash assertionId
  · refine absurd ?_ hset
    rw [hsame]
    exact Function.update_self ..
  · exact ⟨hsame, Function.update_of_ne hsame ..⟩

/-- Nothing is left under the id of a deleted proposal. -/
theorem Linked.deleted (hx : Linked x)
    (hset : (x.deleteProposal assertionId).assertionIds h ≠ 0) :
    x.assertionIds h ≠ assertionId := by
  obtain ⟨hne, hkept⟩ := deleteProposal_assertionIds hset
  intro hid
  refine hne ?_
  rw [← hid]
  exact (hx.hash_of_id h (hkept ▸ hset)).symm

theorem Linked.delete (hx : Linked x) : Linked (x.deleteProposal assertionId) := by
  refine ⟨fun h hset => ?_, fun id hset => ?_, ?_⟩
  · have hne := hx.deleted hset
    obtain ⟨_, hkept⟩ := deleteProposal_assertionIds hset
    rw [hkept] at hset ⊢
    exact (Function.update_of_ne hne ..).trans (hx.hash_of_id h hset)
  · have hne : id ≠ assertionId := by
      rintro rfl
      exact hset (Function.update_self ..)
    have hkept : (x.deleteProposal assertionId).assertionIdToProposalHash id =
        x.assertionIdToProposalHash id := Function.update_of_ne hne ..
    rw [hkept] at hset ⊢
    have hid := hx.id_of_hash id hset
    refine (Function.update_of_ne (fun hsame => hne ?_) ..).trans hid
    rw [← hid, hsame]
    exact hx.id_of_hash assertionId (hsame ▸ hset)
  · show Function.update x.assertionIdToProposalHash assertionId 0 0 = 0
    rw [Function.update_apply, hx.zero, ite_self]

/-- A proposal under a new id. -/
theorem Linked.propose (hx : Linked x) (hfree : x.assertionIds h = 0) (hid : assertionId ≠ 0)
    (hfresh : ∀ g, x.assertionIds g ≠ assertionId) :
    Linked { x with
      assertionIds := Function.update x.assertionIds h assertionId
      assertionIdToProposalHash :=
        Function.update x.assertionIdToProposalHash assertionId h } := by
  refine ⟨fun g hset => ?_, fun id hset => ?_, ?_⟩
  · dsimp only at hset ⊢
    by_cases hg : g = h
    · rw [hg, Function.update_self, Function.update_self]
    · rw [Function.update_of_ne hg] at hset ⊢
      rw [Function.update_of_ne (hfresh g)]
      exact hx.hash_of_id g hset
  · dsimp only at hset ⊢
    by_cases hsame : id = assertionId
    · rw [hsame, Function.update_self, Function.update_self]
    · rw [Function.update_of_ne hsame] at hset ⊢
      have hback := hx.id_of_hash id hset
      rw [Function.update_of_ne fun heq => ?_]
      · exact hback
      · rw [heq, hfree] at hback
        rw [← hback, hx.zero] at hset
        exact hset rfl
  · exact (Function.update_of_ne hid.symm ..).trans hx.zero

/-! ### What holds in every state of a run -/

/-- Every proposal that stands was made properly, is the last of its rebalance, and its assertion
is known and undisputed. -/
structure Sound (hash : Address × Rebalance × Bool → η) (r : Recorded η ω) : Prop where
  linked : Linked r.world.extension
  proper : ∀ p, Event.proposed p ∈ r.events → p.isOpen = true ∧ p.allowed = true
  stands : ∀ rebalance lock,
    r.world.extension.assertionIds (hash (r.world.extension.setToken, rebalance, lock)) ≠ 0 →
      lock = false ∧ ∃ p, standing rebalance r.events = some p ∧
        p.assertionId =
          r.world.extension.assertionIds (hash (r.world.extension.setToken, rebalance, lock))
  undisputed : ∀ h, r.world.extension.assertionIds h ≠ 0 →
    Event.disputed (r.world.extension.assertionIds h) ∉ r.events
  asserted : ∀ h, r.world.extension.assertionIds h ≠ 0 →
    ∃ a, r.world.assertions (r.world.extension.assertionIds h) = some a ∧
      a.callbackRecipient = r.world.extension.self
  known : ∀ id, Event.disputed id ∈ r.events → r.world.assertions id ≠ none

/-- What is standing was proposed, with these parameters. -/
theorem standing_proposed {events : List Event} {p : Proposal}
    (h : standing rebalance events = some p) :
    Event.proposed p ∈ events ∧ p.rebalance = rebalance := by
  induction events with
  | nil => cases h
  | cons event earlier ih =>
    cases event with
    | proposed q =>
      unfold standing at h
      split at h
      · next hsame =>
        obtain rfl := Option.some.inj h
        exact ⟨List.mem_cons_self .., hsame⟩
      · obtain ⟨hmem, hp⟩ := ih h
        exact ⟨List.mem_cons_of_mem _ hmem, hp⟩
    | started R =>
      unfold standing at h
      split at h
      · cases h
      · obtain ⟨hmem, hp⟩ := ih h
        exact ⟨List.mem_cons_of_mem _ hmem, hp⟩
    | disputed id =>
      obtain ⟨hmem, hp⟩ := ih h
      exact ⟨List.mem_cons_of_mem _ hmem, hp⟩

/-- What a step that proposes nothing leaves: the same contract, fewer proposals. -/
structure Fewer (w v : OptimisticWorld η ω) : Prop where
  self : v.extension.self = w.extension.self
  setToken : v.extension.setToken = w.extension.setToken
  linked : Linked w.extension → Linked v.extension
  ids : ∀ h, v.extension.assertionIds h ≠ 0 →
    v.extension.assertionIds h = w.extension.assertionIds h
  assertions : ∀ id a, w.assertions id = some a →
    ∃ b, v.assertions id = some b ∧ b.callbackRecipient = a.callbackRecipient

theorem Fewer.known (hv : Fewer w v) {id : Nat} (h : w.assertions id ≠ none) :
    v.assertions id ≠ none := by
  obtain ⟨a, ha⟩ := Option.ne_none_iff_exists'.mp h
  obtain ⟨b, hb, _⟩ := hv.assertions id a ha
  rw [hb]
  exact Option.some_ne_none b

/-- A step without an event. -/
theorem Sound.of_fewer (h : Sound hash r) (hv : Fewer r.world v) : Sound hash ⟨v, r.events⟩ := by
  refine ⟨hv.linked h.linked, h.proper, fun R lock hset => ?_, fun g hset => ?_, fun g hset => ?_,
    fun id hid => hv.known (h.known id hid)⟩
  · dsimp only at hset ⊢
    rw [hv.setToken] at hset ⊢
    have hids := hv.ids _ hset
    rw [hids] at hset ⊢
    exact h.stands R lock hset
  · dsimp only at hset ⊢
    have hids := hv.ids g hset
    rw [hids] at hset ⊢
    exact h.undisputed g hset
  · dsimp only at hset ⊢
    have hids := hv.ids g hset
    rw [hids] at hset ⊢
    obtain ⟨a, ha, hself⟩ := h.asserted g hset
    obtain ⟨b, hb, hsame⟩ := hv.assertions _ a ha
    exact ⟨b, hb, hsame.trans (hself.trans hv.self.symm)⟩

/-- A dispute, which leaves nothing under the id. -/
theorem Sound.disputed (h : Sound hash r) (hv : Fewer r.world v)
    (hgone : ∀ g, v.extension.assertionIds g ≠ 0 → v.extension.assertionIds g ≠ assertionId)
    (hknown : v.assertions assertionId ≠ none) :
    Sound hash ⟨v, .disputed assertionId :: r.events⟩ := by
  have hsame := h.of_fewer hv
  refine ⟨hsame.linked, fun p hp => ?_, hsame.stands, fun g hset hin => ?_, hsame.asserted,
    fun id hid => ?_⟩
  · exact h.proper p ((List.mem_cons.mp hp).resolve_left Event.noConfusion)
  · cases List.mem_cons.mp hin with
    | inl hnow => exact hgone g hset (Event.disputed.inj hnow)
    | inr hbefore => exact hsame.undisputed g hset hbefore
  · cases List.mem_cons.mp hid with
    | inl hnow =>
      obtain rfl := Event.disputed.inj hnow
      exact hknown
    | inr hbefore => exact hsame.known id hbefore

/-- A start, which leaves nothing under the hash. -/
theorem Sound.started (h : Sound hash r) (hv : Fewer r.world v)
    (hgone : ∀ lock, v.extension.assertionIds
      (hash (v.extension.setToken, rebalance, lock)) = 0) :
    Sound hash ⟨v, .started rebalance :: r.events⟩ := by
  have hsame := h.of_fewer hv
  refine ⟨hsame.linked, fun p hp => ?_, fun R lock hset => ?_, fun g hset hin => ?_, hsame.asserted,
    fun id hid => ?_⟩
  · exact h.proper p ((List.mem_cons.mp hp).resolve_left Event.noConfusion)
  · have hne : rebalance ≠ R := by
      rintro rfl
      exact hset (hgone lock)
    obtain ⟨hlock, p, hp, hid⟩ := hsame.stands R lock hset
    exact ⟨hlock, p, (if_neg hne).trans hp, hid⟩
  · exact hsame.undisputed g hset ((List.mem_cons.mp hin).resolve_left Event.noConfusion)
  · exact hsame.known id ((List.mem_cons.mp hid).resolve_left Event.noConfusion)

/-! ### What one step does -/

/-- The contract with other settings. -/
theorem fewer_of_same {y : OptimisticAuctionRebalanceExtensionV1 η} {others : ω}
    (hself : y.self = w.extension.self) (htoken : y.setToken = w.extension.setToken)
    (hids : y.assertionIds = w.extension.assertionIds)
    (hhashes : y.assertionIdToProposalHash = w.extension.assertionIdToProposalHash) :
    Fewer w { w with extension := y, others := others } := by
  refine ⟨hself, htoken, fun hlinked => ⟨?_, ?_, ?_⟩, fun h _ => ?_, fun _ a ha => ⟨a, ha, rfl⟩⟩
  · dsimp only
    rw [hids, hhashes]
    exact hlinked.hash_of_id
  · dsimp only
    rw [hids, hhashes]
    exact hlinked.id_of_hash
  · dsimp only
    rw [hhashes]
    exact hlinked.zero
  · dsimp only
    rw [hids]

theorem fewer_of_deleted {isOpen : Bool} {others : ω} :
    Fewer w { w with
      extension := { w.extension.deleteProposal assertionId with isOpen := isOpen }
      others := others } := by
  refine ⟨rfl, rfl, fun hlinked => ?_, fun h hset => (deleteProposal_assertionIds hset).2,
    fun _ a ha => ⟨a, ha, rfl⟩⟩
  have hdeleted : Linked (w.extension.deleteProposal assertionId) := hlinked.delete
  exact ⟨hdeleted.hash_of_id, hdeleted.id_of_hash, hdeleted.zero⟩

/-- An assertion changes, but not whom it calls back. -/
theorem fewer_of_assertion {a b : Assertion} (ha : w.assertions assertionId = some a)
    (hb : b.callbackRecipient = a.callbackRecipient) :
    Fewer w { w with assertions := Function.update w.assertions assertionId (some b) } := by
  refine ⟨rfl, rfl, id, fun _ _ => rfl, fun id c hc => ?_⟩
  by_cases hsame : id = assertionId
  · rw [hsame] at hc ⊢
    obtain rfl := Option.some.inj (ha.symm.trans hc)
    exact ⟨b, Function.update_self .., hb⟩
  · exact ⟨c, (Function.update_of_ne hsame ..).trans hc, rfl⟩

theorem Fewer.trans {u : OptimisticWorld η ω} (h : Fewer w v) (h' : Fewer v u) : Fewer w u := by
  refine ⟨h'.self.trans h.self, h'.setToken.trans h.setToken, h'.linked ∘ h.linked,
    fun g hset => ?_, fun id a ha => ?_⟩
  · have hids := h'.ids g hset
    rw [hids] at hset ⊢
    exact h.ids g hset
  · obtain ⟨b, hb, hsame⟩ := h.assertions id a ha
    obtain ⟨c, hc, hsame'⟩ := h'.assertions id b hb
    exact ⟨c, hc, hsame'.trans hsame⟩

theorem assertionDisputedCallback_eq
    (h : assertionDisputedCallback w sender assertionId = .ok v) :
    v = { w with extension := w.extension.deleteProposal assertionId } := by
  simp only [assertionDisputedCallback, bind_eq_ok] at h
  obtain ⟨_, _, h⟩ := h
  by_cases hsender : sender = w.extension.productSettings.optimisticParams.optimisticOracleV3
  · rw [if_pos hsender, pure_eq_ok] at h
    exact h.symm
  · rw [if_neg hsender] at h
    simp only [bind_eq_ok, pure_eq_ok] at h
    obtain ⟨_, _, _, _, rfl⟩ := h
    rfl

/-- A dispute takes effect only where it leaves nothing under the id. -/
theorem disputeAssertion_sound (h : Sound hash r)
    (hv : disputeAssertion r.world assertionId = .ok v) :
    Sound hash ⟨v, .disputed assertionId :: r.events⟩ := by
  unfold disputeAssertion at hv
  cases ha : r.world.assertions assertionId with
  | none =>
    rw [ha] at hv
    cases hv
  | some a =>
    simp only [ha, bind_eq_ok] at hv
    obtain ⟨_, _, hv⟩ := hv
    have hmarked := fewer_of_assertion (b := { a with disputed := true }) ha rfl
    by_cases hours : a.callbackRecipient = r.world.extension.self
    · rw [if_pos hours] at hv
      rw [assertionDisputedCallback_eq hv]
      refine h.disputed (hmarked.trans fewer_of_deleted) (fun g hset hid => ?_) ?_
      · refine h.linked.deleted hset ?_
        rw [← (deleteProposal_assertionIds hset).2]
        exact hid
      · dsimp only
        rw [Function.update_self]
        exact Option.some_ne_none _
    · rw [if_neg hours, pure_eq_ok] at hv
      subst hv
      refine h.disputed hmarked (fun g hset hid => hours ?_) ?_
      · obtain ⟨b, hb, hself⟩ := h.asserted g hset
        dsimp only at hid
        rw [hid, ha] at hb
        obtain rfl := Option.some.inj hb
        exact hself
      · dsimp only
        rw [Function.update_self]
        exact Option.some_ne_none _

/-- What a start finds and leaves. -/
theorem startRebalance_eq {lock : Bool} (h : startRebalance e hash w rebalance lock = .ok v) :
    w.extension.isOpen = true ∧ v.extension.isOpen = false ∧
      w.extension.assertionIds (hash (w.extension.setToken, rebalance, lock)) ≠ 0 ∧
      ∃ others, v = { w with
        extension :=
          { w.extension.deleteProposal
              (w.extension.assertionIds (hash (w.extension.setToken, rebalance, lock))) with
            isOpen := false }
        others := others } := by
  simp only [startRebalance, onlyIfOpen, bind_eq_ok, require_eq_ok, pure_eq_ok] at h
  obtain ⟨_, hopen, _, hset, _, _, _, _, others, _, rfl⟩ := h
  exact ⟨hopen, rfl, hset, others, rfl⟩

theorem startRebalance_sound {lock : Bool} (h : Sound hash r)
    (hv : startRebalance e hash r.world rebalance lock = .ok v) :
    Sound hash ⟨v, .started rebalance :: r.events⟩ := by
  obtain ⟨_, _, hset, others, rfl⟩ := startRebalance_eq hv
  refine h.started fewer_of_deleted fun lock' => ?_
  obtain ⟨rfl, _⟩ := h.stands rebalance lock hset
  by_contra hleft
  obtain ⟨hne, hkept⟩ := deleteProposal_assertionIds hleft
  rw [h.linked.hash_of_id _ hset] at hne
  have hlock : lock' = false := (h.stands rebalance lock' (hkept ▸ hleft)).1
  rw [hlock] at hne
  exact hne rfl

/-- A proposal is made of allowed components in an open extension, under a new id. -/
theorem proposeRebalance_eq (h : proposeRebalance e hash w sender rebalance assertionId = .ok v) :
    w.extension.areAllowedAssets rebalance.newComponents = true ∧ w.extension.isOpen = true ∧
      w.extension.assertionIds (hash (w.extension.setToken, rebalance, false)) = 0 ∧
      assertionId ≠ 0 ∧ w.assertions assertionId = none ∧
      ∃ others a, a.callbackRecipient = w.extension.self ∧
        v = { w with
          extension :=
            { w.extension with
              assertionIds := Function.update w.extension.assertionIds
                (hash (w.extension.setToken, rebalance, false)) assertionId
              assertionIdToProposalHash :=
                Function.update w.extension.assertionIdToProposalHash assertionId
                  (hash (w.extension.setToken, rebalance, false)) }
          assertions := Function.update w.assertions assertionId (some a)
          others := others } := by
  simp only [proposeRebalance, onlyIfOpen, assertTruth, bind_eq_ok, require_eq_ok, pure_eq_ok] at h
  obtain ⟨_, hallowed, _, hopen, _, hfree, _, _, _, _, ⟨totalBond, others⟩, _, _,
    ⟨_, ⟨hid, hnew⟩, rfl⟩, rfl⟩ := h
  exact ⟨hallowed, hopen, hfree, hid, hnew, others, _, rfl, rfl⟩

theorem proposeRebalance_sound (hinj : Function.Injective hash) (h : Sound hash r)
    (hv : proposeRebalance e hash r.world sender rebalance assertionId = .ok v) :
    Sound hash ⟨v, .proposed ⟨rebalance, assertionId, r.world.extension.isOpen,
      r.world.extension.areAllowedAssets rebalance.newComponents⟩ :: r.events⟩ := by
  obtain ⟨hallowed, hopen, hfree, hid, hnew, others, a, hself, rfl⟩ := proposeRebalance_eq hv
  have hfresh : ∀ g, r.world.extension.assertionIds g ≠ assertionId := by
    intro g hg
    obtain ⟨b, hb, _⟩ := h.asserted g (hg ▸ hid)
    rw [hg, hnew] at hb
    cases hb
  have hidle : Event.disputed assertionId ∉ r.events := fun hin => h.known assertionId hin hnew
  refine ⟨h.linked.propose hfree hid hfresh, fun p hp => ?_, fun R lock hset => ?_,
    fun g hset hin => ?_, fun g hset => ?_, fun id hdisputed => ?_⟩
  · cases List.mem_cons.mp hp with
    | inl hnow =>
      obtain rfl := Event.proposed.inj hnow
      exact ⟨hopen, hallowed⟩
    | inr hbefore => exact h.proper p hbefore
  · dsimp only at hset ⊢
    by_cases hsame : hash (r.world.extension.setToken, R, lock) =
        hash (r.world.extension.setToken, rebalance, false)
    · obtain ⟨_, rfl, rfl⟩ : _ ∧ R = rebalance ∧ lock = false := by
        simpa only [Prod.mk.injEq] using hinj hsame
      rw [Function.update_self]
      exact ⟨rfl, _, if_pos rfl, rfl⟩
    · rw [Function.update_of_ne hsame] at hset ⊢
      obtain ⟨hlock, p, hp, hpid⟩ := h.stands R lock hset
      have hne : rebalance ≠ R := by
        rintro rfl
        exact hsame (by rw [hlock])
      exact ⟨hlock, p, (if_neg hne).trans hp, hpid⟩
  · have hin := (List.mem_cons.mp hin).resolve_left Event.noConfusion
    dsimp only at hset hin
    rw [Function.update_apply] at hset hin
    split at hin
    · exact hidle hin
    · next hg =>
      rw [if_neg hg] at hset
      exact h.undisputed g hset hin
  · dsimp only at hset ⊢
    by_cases hg : g = hash (r.world.extension.setToken, rebalance, false)
    · rw [hg, Function.update_self, Function.update_self]
      exact ⟨a, rfl, hself⟩
    · rw [Function.update_of_ne hg] at hset ⊢
      obtain ⟨b, hb, hsame⟩ := h.asserted g hset
      exact ⟨b, (Function.update_of_ne (hfresh g) ..).trans hb, hsame⟩
  · have hin := (List.mem_cons.mp hdisputed).resolve_left Event.noConfusion
    dsimp only
    rw [Function.update_of_ne]
    · exact h.known id hin
    · rintro rfl
      exact hidle hin

/-! ### Runs -/

theorem addAllowedAsset_same {asset : Address} {y : OptimisticAuctionRebalanceExtensionV1 η}
    (h : addAllowedAsset x asset = .ok y) : ∃ allowedAssets assetAllowlist,
      y = { x with allowedAssets := allowedAssets, assetAllowlist := assetAllowlist } := by
  simp only [addAllowedAsset, bind_eq_ok, pure_eq_ok] at h
  obtain ⟨_, _, rfl⟩ := h
  exact ⟨_, _, rfl⟩

theorem removeAllowedAsset_same {asset : Address} {y : OptimisticAuctionRebalanceExtensionV1 η}
    (h : removeAllowedAsset x asset = .ok y) : ∃ allowedAssets assetAllowlist,
      y = { x with allowedAssets := allowedAssets, assetAllowlist := assetAllowlist } := by
  simp only [removeAllowedAsset, bind_eq_ok, pure_eq_ok] at h
  obtain ⟨_, _, _, _, rfl⟩ := h
  exact ⟨_, _, rfl⟩

/-- A loop over the allow list touches nothing else. -/
theorem allowed_same {step : OptimisticAuctionRebalanceExtensionV1 η → Address →
      Result (OptimisticAuctionRebalanceExtensionV1 η)}
    {assets : List Address} {y : OptimisticAuctionRebalanceExtensionV1 η}
    (hstep : ∀ x asset y, step x asset = .ok y → ∃ allowedAssets assetAllowlist,
      y = { x with allowedAssets := allowedAssets, assetAllowlist := assetAllowlist })
    (h : runs step x assets = .ok y) : ∃ allowedAssets assetAllowlist,
      y = { x with allowedAssets := allowedAssets, assetAllowlist := assetAllowlist } := by
  refine runs_invariant (fun y => ∃ allowedAssets assetAllowlist,
    y = { x with allowedAssets := allowedAssets, assetAllowlist := assetAllowlist })
    (fun s asset t hs ht => ?_) ⟨_, _, rfl⟩ h
  obtain ⟨_, _, rfl⟩ := hs
  obtain ⟨_, _, rfl⟩ := hstep _ _ _ ht
  exact ⟨_, _, rfl⟩

theorem operate_sound {f : OptimisticAuctionRebalanceExtensionV1 η →
      Result (OptimisticAuctionRebalanceExtensionV1 η)} (h : Sound hash r)
    (hf : ∀ y, f r.world.extension = .ok y → y.self = r.world.extension.self ∧
      y.setToken = r.world.extension.setToken ∧
      y.assertionIds = r.world.extension.assertionIds ∧
      y.assertionIdToProposalHash = r.world.extension.assertionIdToProposalHash)
    (hv : operate e r.world sender f = .ok v) : Sound hash ⟨v, r.events⟩ := by
  simp only [operate, bind_eq_ok, pure_eq_ok] at hv
  obtain ⟨_, _, y, hy, rfl⟩ := hv
  obtain ⟨hself, htoken, hids, hhashes⟩ := hf y hy
  exact h.of_fewer (fewer_of_same hself htoken hids hhashes)

theorem record_sound {a : Action ω} (hinj : Function.Injective hash) (h : Sound hash r)
    (ht : record e hash r a = .ok t) : Sound hash t := by
  cases a with
  | setProductSettings sender optimisticParams rules =>
    simp only [record, bind_eq_ok, pure_eq_ok] at ht
    obtain ⟨w, hw, rfl⟩ := ht
    refine operate_sound h (fun y hy => ?_) hw
    obtain rfl := Except.ok.inj hy
    exact ⟨rfl, rfl, rfl, rfl⟩
  | updateIsOpen sender isOpen =>
    simp only [record, bind_eq_ok, pure_eq_ok] at ht
    obtain ⟨w, hw, rfl⟩ := ht
    refine operate_sound h (fun y hy => ?_) hw
    obtain rfl := Except.ok.inj hy
    exact ⟨rfl, rfl, rfl, rfl⟩
  | addAllowedAssets sender assets =>
    simp only [record, bind_eq_ok, pure_eq_ok] at ht
    obtain ⟨w, hw, rfl⟩ := ht
    refine operate_sound h (fun y hy => ?_) hw
    obtain ⟨_, _, rfl⟩ := allowed_same (fun _ _ _ => addAllowedAsset_same) hy
    exact ⟨rfl, rfl, rfl, rfl⟩
  | removeAllowedAssets sender assets =>
    simp only [record, bind_eq_ok, pure_eq_ok] at ht
    obtain ⟨w, hw, rfl⟩ := ht
    refine operate_sound h (fun y hy => ?_) hw
    obtain ⟨_, _, rfl⟩ := allowed_same (fun _ _ _ => removeAllowedAsset_same) hy
    exact ⟨rfl, rfl, rfl, rfl⟩
  | updateUseAssetAllowlist sender useAssetAllowlist =>
    simp only [record, bind_eq_ok, pure_eq_ok] at ht
    obtain ⟨w, hw, rfl⟩ := ht
    refine operate_sound h (fun y hy => ?_) hw
    obtain rfl := Except.ok.inj hy
    exact ⟨rfl, rfl, rfl, rfl⟩
  | proposeRebalance sender rebalance assertionId =>
    simp only [record, bind_eq_ok, pure_eq_ok] at ht
    obtain ⟨w, hw, rfl⟩ := ht
    exact proposeRebalance_sound hinj h hw
  | startRebalance rebalance lock =>
    simp only [record, bind_eq_ok, pure_eq_ok] at ht
    obtain ⟨w, hw, rfl⟩ := ht
    exact startRebalance_sound h hw
  | assertionDisputedCallback sender assertionId =>
    simp only [record, bind_eq_ok, pure_eq_ok] at ht
    obtain ⟨w, hw, rfl⟩ := ht
    rw [assertionDisputedCallback_eq hw]
    exact h.of_fewer fewer_of_deleted
  | disputeAssertion assertionId =>
    simp only [record, bind_eq_ok, pure_eq_ok] at ht
    obtain ⟨w, hw, rfl⟩ := ht
    exact disputeAssertion_sound h hw
  | resolveAssertion assertionId result =>
    simp only [record, resolveAssertion, bind_eq_ok, pure_eq_ok] at ht
    obtain ⟨w, hw, rfl⟩ := ht
    cases ha : r.world.assertions assertionId with
    | none =>
      rw [ha] at hw
      cases hw
    | some a =>
      rw [ha] at hw
      obtain rfl := Except.ok.inj hw
      exact h.of_fewer (fewer_of_assertion ha rfl)
  | assertElsewhere assertionId a =>
    simp only [record, assertElsewhere, assertTruth, bind_eq_ok, require_eq_ok, pure_eq_ok] at ht
    obtain ⟨w, ⟨_, ⟨_, ⟨_, hnew⟩, rfl⟩, rfl⟩, rfl⟩ := ht
    refine h.of_fewer ⟨rfl, rfl, id, fun _ _ => rfl, fun id b hb => ⟨b, ?_, rfl⟩⟩
    refine (Function.update_of_ne (fun hsame => ?_) ..).trans hb
    rw [hsame, hnew] at hb
    cases hb
  | elsewhere others =>
    obtain rfl := Except.ok.inj ht
    exact h.of_fewer (fewer_of_same rfl rfl rfl rfl)

theorem deploy_sound {self setToken : Address} {useAssetAllowlist : Bool}
    {allowedAssets : List Address} {assertions : Assertions} {others : ω}
    (hx : deploy self setToken useAssetAllowlist allowedAssets = .ok x) :
    Sound hash ⟨⟨x, assertions, others⟩, []⟩ := by
  simp only [deploy, bind_eq_ok, pure_eq_ok] at hx
  obtain ⟨_, hadded, rfl⟩ := hx
  obtain ⟨_, _, rfl⟩ := allowed_same (fun _ _ _ => addAllowedAsset_same) hadded
  exact ⟨⟨fun _ hset => absurd rfl hset, fun _ hset => absurd rfl hset, rfl⟩,
    fun _ hp => absurd hp List.not_mem_nil, fun _ _ hset => absurd rfl hset,
    fun _ hset => absurd rfl hset, fun _ hset => absurd rfl hset,
    fun _ hid => absurd hid List.not_mem_nil⟩

/-- **Only proposed, undisputed rebalances start.** In every state that a run from the deployment
reaches, the two mappings are inverse to each other; and a start from there closes the extension,
is not of a lock, and starts the last proposal of the same parameters, which was made in an open
extension and of allowed components, was not started since, and whose assertion was not disputed. -/
theorem starts_proposed {self setToken : Address} {useAssetAllowlist : Bool}
    {allowedAssets : List Address} {assertions : Assertions} {others : ω}
    {actions : List (Action ω)} (hinj : Function.Injective hash)
    (hx : deploy self setToken useAssetAllowlist allowedAssets = .ok x)
    (hr : runs (record e hash) ⟨⟨x, assertions, others⟩, []⟩ actions = .ok r) :
    Linked r.world.extension ∧
      ∀ rebalance lock t, record e hash r (.startRebalance rebalance lock) = .ok t →
        r.world.extension.isOpen = true ∧ t.world.extension.isOpen = false ∧ lock = false ∧
        ∃ p, standing rebalance r.events = some p ∧ Event.proposed p ∈ r.events ∧
          p.rebalance = rebalance ∧ p.isOpen = true ∧ p.allowed = true ∧
          Event.disputed p.assertionId ∉ r.events := by
  have hsound : Sound hash r :=
    runs_invariant (Sound hash) (fun _ _ _ hs ht => record_sound hinj hs ht) (deploy_sound hx) hr
  refine ⟨hsound.linked, fun rebalance lock t ht => ?_⟩
  simp only [record, bind_eq_ok, pure_eq_ok] at ht
  obtain ⟨w, hw, rfl⟩ := ht
  obtain ⟨hopen, hclosed, hset, _⟩ := startRebalance_eq hw
  obtain ⟨hlock, p, hp, hid⟩ := hsound.stands rebalance lock hset
  obtain ⟨hin, hsame⟩ := standing_proposed hp
  obtain ⟨hwasOpen, hallowed⟩ := hsound.proper p hin
  have hidle := hsound.undisputed _ hset
  rw [← hid] at hidle
  exact ⟨hopen, hclosed, hlock, p, hp, hin, hsame, hwasOpen, hallowed, hidle⟩

/-! An hour and a bond, and a proposal that nobody disputes. -/

def exampleSurroundings : Surroundings Unit where
  getMinimumBond _ _ _ := .ok 10
  safeTransferFrom _ _ _ others := .ok others
  safeIncreaseAllowance _ _ _ others := .ok others
  operator _ := 1
  getComponents _ := [11]
  interactManager _ others := .ok others

def exampleRebalance : Rebalance where
  quoteAsset := 12
  oldComponents := [11]
  newComponents := [13]
  newComponentsAuctionParams := [⟨10 ^ 18, "adapter", []⟩]
  oldComponentsAuctionParams := [⟨0, "adapter", []⟩]
  rebalanceDuration := 3600
  positionMultiplier := 10 ^ 18

def exampleProposing : List (Action Unit) :=
  [.setProductSettings 1 ⟨12, 7200, 5, 0, 20⟩ "rules", .updateIsOpen 1 true,
    .proposeRebalance 2 exampleRebalance 7, .resolveAssertion 7 true]

theorem starts_proposed_example : ∃ (x : OptimisticAuctionRebalanceExtensionV1 Preimage) (r t :
      Recorded Preimage Unit), deploy 30 40 true [13] = .ok x ∧
    runs (record exampleSurroundings Preimage.of) ⟨⟨x, fun _ => none, ()⟩, []⟩ exampleProposing =
      .ok r ∧
    record exampleSurroundings Preimage.of r (.startRebalance exampleRebalance false) = .ok t ∧
    Linked r.world.extension ∧ t.world.extension.isOpen = false := by
  have h : (do
      let x ← (deploy 30 40 true [13] : Result (OptimisticAuctionRebalanceExtensionV1 Preimage))
      let r ← runs (record exampleSurroundings Preimage.of) ⟨⟨x, fun _ => none, ()⟩, []⟩
        exampleProposing
      let t ← record exampleSurroundings Preimage.of r (.startRebalance exampleRebalance false)
      require (t.world.extension.isOpen = false) "") = .ok () := by
    decide +kernel
  simp only [bind_eq_ok, require_eq_ok] at h
  obtain ⟨x, hx, r, hr, t, ht, _⟩ := h
  obtain ⟨hlinked, hstarts⟩ := starts_proposed Preimage.of_injective hx hr
  exact ⟨x, r, t, hx, hr, ht, hlinked, (hstarts _ _ t ht).2.1⟩

end OptimisticAuctionRebalanceExtensionV1

end IndexProtocol
