import IndexProtocol.Global.BaseExtension
import IndexProtocol.Evm.Result

/-! The GlobalClaimExtension: rewards claimed and absorbed in one call.

`batchClaimAndAbsorb` collects the reward tokens of its pools in a storage array
that it never assigns, which is the array at slot 0 of the contract: what a call
pushes there, later calls find. -/
namespace IndexProtocol
open Evm

namespace GlobalClaimExtension

/-- The calls of modules, as the extension encodes them. -/
inductive ModuleCall where
  | batchClaim (setToken : Address) (rewardPools : List Address) (integrationNames : List String)
  | batchAbsorb (setToken : Address) (tokens : List Address)
  deriving DecidableEq, Repr

end GlobalClaimExtension

structure GlobalClaimExtension where
  setManagers : Address → Address
  /-- The array at slot 0, where the mapping `setManagers` keeps nothing. -/
  slot0 : List Address

structure ClaimWorld (ω : Type) where
  extension : GlobalClaimExtension
  others : ω

namespace GlobalClaimExtension
variable {ω : Type}

/-- The contracts around the extension. -/
structure Surroundings (ω : Type) where
  managers : DelegatedManagers ω ModuleCall
  anyoneClaim : Address → ω → Bool
  anyoneAbsorb : Address → ω → Bool
  /-- The claim adapter of a name, from the integration registry. -/
  getIntegrationAdapter : String → ω → Result Address
  /-- The reward token of a pool, from an adapter. -/
  getTokenAddress : Address → Address → ω → Result Address

def construct : GlobalClaimExtension := ⟨fun _ => 0, []⟩

variable (e : Surroundings ω) (w : ClaimWorld ω) (sender : Address) (setToken : Address)

/-- The operator is asked only where not anyone may call. -/
def isValidClaimAndAbsorbCaller : Result Bool :=
  if e.anyoneClaim setToken w.others = true ∧ e.anyoneAbsorb setToken w.others = true then pure true
  else e.managers.operatorAllowlist (w.extension.setManagers setToken) sender w.others

def getAndValidateRewardsToken (rewardPool : Address) (integrationName : String) :
    Result Address := do
  let adapter ← e.getIntegrationAdapter integrationName w.others
  let rewardsToken ← e.getTokenAddress adapter rewardPool w.others
  let allowed ← e.managers.isAllowedAsset (w.extension.setManagers setToken) rewardsToken w.others
  require (allowed = true) "Must be allowed asset"
  pure rewardsToken

/-- The loop over the pools. A pool without a name is out of range of the names. -/
def pushRewardsTokens (rewardsTokens : List Address) : List Address → List String →
    Result (List Address)
  | [], _ => pure rewardsTokens
  | _ :: _, [] => revert "invalid opcode"
  | pool :: pools, name :: names => do
    let token ← getAndValidateRewardsToken e w setToken pool name
    pushRewardsTokens (rewardsTokens ++ [token]) pools names

def invokeManager (call : ModuleCall) : Result (ClaimWorld ω) := do
  let others ← e.managers.interactManager (w.extension.setManagers setToken) call w.others
  pure { w with others := others }

/-- Also returns the tokens passed to `AirdropModule.batchAbsorb`. -/
def batchClaimAndAbsorb (rewardPools : List Address) (integrationNames : List String) :
    Result (ClaimWorld ω × List Address) := do
  let valid ← isValidClaimAndAbsorbCaller e w sender setToken
  require (valid = true) "Must be valid AirdropModule absorb and ClaimModule claim caller"
  let rewardsTokens ←
    pushRewardsTokens e w setToken w.extension.slot0 rewardPools integrationNames
  let w := { w with extension := { w.extension with slot0 := rewardsTokens } }
  let w ← invokeManager e w setToken (.batchClaim setToken rewardPools integrationNames)
  let tokens := w.extension.slot0
  let w ← invokeManager e w setToken (.batchAbsorb setToken tokens)
  pure (w, tokens)

def initializeExtension (delegatedManager : Address) : Result (ClaimWorld ω) := do
  let (setManagers, others) ← BaseGlobalExtension.initializeExtension e.managers
    w.extension.setManagers w.others sender delegatedManager
  pure ⟨{ w.extension with setManagers := setManagers }, others⟩

def removeExtension : Result (ClaimWorld ω) := do
  let setManagers ←
    BaseGlobalExtension.removeExtension e.managers w.extension.setManagers w.others sender
  pure { w with extension := { w.extension with setManagers := setManagers } }

/-! ### Runs -/

inductive Action (ω : Type) where
  | batchClaimAndAbsorb (sender setToken : Address) (rewardPools : List Address)
    (integrationNames : List String)
  | initializeExtension (sender delegatedManager : Address)
  | removeExtension (sender : Address)
  /-- Whatever else happens, the extension's other calls of modules included. -/
  | elsewhere (others : ω)

/-- A successful `batchClaimAndAbsorb`: the reward tokens of its pools, and what it absorbed. -/
structure Absorption where
  setToken : Address
  rewardPools : List Address
  rewardsTokens : List Address
  absorbed : List Address
  deriving DecidableEq, Repr

structure Recorded (ω : Type) where
  world : ClaimWorld ω
  /-- The latest first. -/
  absorptions : List Absorption

/-- A call that returns. -/
def perform (r : Recorded ω) : Action ω → Result (Recorded ω)
  | .batchClaimAndAbsorb sender setToken rewardPools integrationNames => do
    let own ← pushRewardsTokens e r.world setToken [] rewardPools integrationNames
    let (w, absorbed) ← GlobalClaimExtension.batchClaimAndAbsorb e r.world sender setToken
      rewardPools integrationNames
    pure ⟨w, ⟨setToken, rewardPools, own, absorbed⟩ :: r.absorptions⟩
  | .initializeExtension sender delegatedManager => do
    let w ← GlobalClaimExtension.initializeExtension e r.world sender delegatedManager
    pure { r with world := w }
  | .removeExtension sender => do
    let w ← GlobalClaimExtension.removeExtension e r.world sender
    pure { r with world := w }
  | .elsewhere others => pure { r with world := { r.world with others := others } }

/-- A call that fails leaves everything as it was. -/
def record (r : Recorded ω) (a : Action ω) : Recorded ω :=
  match perform e r a with
  | .ok t => t
  | .error _ => r

variable {e w setToken} {r t : Recorded ω} {pools : List Address} {names : List String}

/-- What the loop pushes does not depend on what it finds. -/
theorem pushRewardsTokens_eq_ok {found tokens : List Address} :
    pushRewardsTokens e w setToken found pools names = .ok tokens ↔
      ∃ own, pushRewardsTokens e w setToken [] pools names = .ok own ∧ found ++ own = tokens := by
  induction pools generalizing found tokens names with
  | nil => simp [pushRewardsTokens]
  | cons pool pools ih =>
    cases names with
    | nil => simp [pushRewardsTokens]
    | cons name names =>
      simp only [pushRewardsTokens, bind_eq_ok]
      constructor
      · rintro ⟨token, htoken, hrest⟩
        obtain ⟨own, hown, rfl⟩ := ih.mp hrest
        refine ⟨[token] ++ own, ⟨token, htoken, ih.mpr ⟨own, hown, rfl⟩⟩, ?_⟩
        rw [List.append_assoc]
      · rintro ⟨own, ⟨token, htoken, hrest⟩, htokens⟩
        obtain ⟨later, hlater, rfl⟩ := ih.mp hrest
        refine ⟨token, htoken, ih.mpr ⟨later, hlater, ?_⟩⟩
        rw [← htokens, List.nil_append, List.append_assoc]

theorem pushRewardsTokens_length {found tokens : List Address}
    (h : pushRewardsTokens e w setToken found pools names = .ok tokens) :
    tokens.length = found.length + pools.length := by
  induction pools generalizing found names with
  | nil =>
    obtain rfl : found = tokens := by simpa [pushRewardsTokens] using h
    rfl
  | cons pool pools ih =>
    cases names with
    | nil => simp [pushRewardsTokens] at h
    | cons name names =>
      simp only [pushRewardsTokens, bind_eq_ok] at h
      obtain ⟨_, _, hrest⟩ := h
      rw [ih hrest, List.length_append, List.length_cons, List.length_cons, List.length_nil]
      omega

/-- A call absorbs what it finds at slot 0 and its own reward tokens, and leaves all of it there. -/
theorem batchClaimAndAbsorb_eq {sender : Address} {v : ClaimWorld ω} {own absorbed : List Address}
    (hown : pushRewardsTokens e w setToken [] pools names = .ok own)
    (h : batchClaimAndAbsorb e w sender setToken pools names = .ok (v, absorbed)) :
    absorbed = w.extension.slot0 ++ own ∧ v.extension.slot0 = absorbed := by
  simp only [batchClaimAndAbsorb, invokeManager, bind_eq_ok, pure_eq_ok, Prod.mk.injEq] at h
  obtain ⟨_, _, _, _, tokens, htokens, _, ⟨_, _, rfl⟩, _, ⟨_, _, rfl⟩, rfl, rfl⟩ := h
  obtain ⟨own', hown', rfl⟩ := pushRewardsTokens_eq_ok.mp htokens
  obtain rfl : own = own' := Except.ok.inj (hown.symm.trans hown')
  exact ⟨rfl, rfl⟩

/-- Every call so far absorbed its own rewards. -/
def Exact (r : Recorded ω) : Prop := ∀ a ∈ r.absorptions, a.absorbed = a.rewardsTokens

/-- Slot 0 holds what the last call absorbed, and is empty only if no call had a pool. -/
structure Accumulated (r : Recorded ω) : Prop where
  empty_iff : r.world.extension.slot0 = [] ↔ ∀ a ∈ r.absorptions, a.rewardPools = []
  exact_iff : Exact r ↔ ∀ a ∈ r.absorptions.tail, a.rewardPools = []

theorem record_accumulated {a : Action ω} (h : Accumulated r) : Accumulated (record e r a) := by
  unfold record
  cases hperform : perform e r a with
  | error reason => exact h
  | ok t =>
    show Accumulated t
    cases a with
    | batchClaimAndAbsorb sender setToken pools names =>
      simp only [perform, bind_eq_ok, pure_eq_ok] at hperform
      obtain ⟨own, hown, ⟨w, absorbed⟩, hcall, rfl⟩ := hperform
      obtain ⟨habsorbed, hslot⟩ := batchClaimAndAbsorb_eq hown hcall
      have hlength : own.length = pools.length := by
        rw [pushRewardsTokens_length hown, List.length_nil, Nat.zero_add]
      have hnone : own = [] ↔ pools = [] := by
        rw [← List.length_eq_zero_iff, hlength, List.length_eq_zero_iff]
      constructor
      · show w.extension.slot0 = [] ↔ ∀ a ∈ _ :: r.absorptions, a.rewardPools = []
        rw [hslot, habsorbed, List.append_eq_nil_iff, h.empty_iff, List.forall_mem_cons, hnone]
        exact and_comm
      · show (∀ a ∈ _ :: r.absorptions, a.absorbed = a.rewardsTokens) ↔
          ∀ a ∈ r.absorptions, a.rewardPools = []
        rw [List.forall_mem_cons, ← h.empty_iff]
        show absorbed = own ∧ Exact r ↔ _
        rw [habsorbed, List.append_left_eq_self, h.exact_iff]
        refine and_iff_left_of_imp fun hempty a ha => ?_
        exact h.empty_iff.mp hempty a (List.mem_of_mem_tail ha)
    | initializeExtension sender delegatedManager =>
      simp only [perform, initializeExtension, bind_eq_ok, pure_eq_ok] at hperform
      obtain ⟨_, ⟨⟨_, _⟩, _, rfl⟩, rfl⟩ := hperform
      exact ⟨h.empty_iff, h.exact_iff⟩
    | removeExtension sender =>
      simp only [perform, removeExtension, bind_eq_ok, pure_eq_ok] at hperform
      obtain ⟨_, ⟨_, _, rfl⟩, rfl⟩ := hperform
      exact ⟨h.empty_iff, h.exact_iff⟩
    | elsewhere others =>
      obtain rfl := Except.ok.inj hperform
      exact ⟨h.empty_iff, h.exact_iff⟩

/-- **Whose rewards are absorbed.** In every sequence of calls on a new extension, successful or
not, every successful call absorbs exactly the reward tokens of its own pools, if and only if no
successful call but the last one has a pool. -/
theorem absorbs_own_iff {others : ω} {actions : List (Action ω)} :
    Exact (actions.foldl (record e) ⟨⟨construct, others⟩, []⟩) ↔
      ∀ a ∈ (actions.foldl (record e) ⟨⟨construct, others⟩, []⟩).absorptions.tail,
        a.rewardPools = [] := by
  suffices ∀ r : Recorded ω, Accumulated r → Accumulated (actions.foldl (record e) r) from
    (this ⟨⟨construct, others⟩, []⟩
      ⟨iff_of_true rfl fun _ ha => absurd ha List.not_mem_nil,
        iff_of_true (fun _ ha => absurd ha List.not_mem_nil)
          fun _ ha => absurd ha List.not_mem_nil⟩).exact_iff
  induction actions with
  | nil => exact fun _ h => h
  | cons a rest ih => exact fun r h => ih _ (record_accumulated h)

/-! Pools reward with the token of their own address. -/

def exampleSurroundings : Surroundings Unit where
  managers :=
    { owner := fun _ _ => .ok 1
      setToken := fun manager _ => .ok manager
      operatorAllowlist := fun _ _ _ => .ok true
      isAllowedAsset := fun _ _ _ => .ok true
      isManager := fun _ _ => true
      initializeExtension := fun _ others => .ok others
      interactManager := fun _ _ others => .ok others }
  anyoneClaim _ _ := false
  anyoneAbsorb _ _ := false
  getIntegrationAdapter _ _ := .ok 7
  getTokenAddress _ pool _ := .ok pool

/-- Two SetTokens claim from a pool each, and the second absorbs the reward token of the first. -/
theorem absorbs_foreign :
    ((List.foldl (record exampleSurroundings) ⟨⟨construct, ()⟩, []⟩
      [.batchClaimAndAbsorb 1 100 [11] ["adapter"], .batchClaimAndAbsorb 1 200 [22] ["adapter"]]
      ).absorptions = [⟨200, [22], [22], [11, 22]⟩, ⟨100, [11], [11], [11]⟩]) ∧
    ¬Exact (List.foldl (record exampleSurroundings) ⟨⟨construct, ()⟩, []⟩
      [.batchClaimAndAbsorb 1 100 [11] ["adapter"],
        .batchClaimAndAbsorb 1 200 [22] ["adapter"]]) := by
  have h : (List.foldl (record exampleSurroundings) ⟨⟨construct, ()⟩, []⟩
      [.batchClaimAndAbsorb 1 100 [11] ["adapter"], .batchClaimAndAbsorb 1 200 [22] ["adapter"]]
      ).absorptions = [⟨200, [22], [22], [11, 22]⟩, ⟨100, [11], [11], [11]⟩] := by
    decide +kernel
  refine ⟨h, fun hexact => ?_⟩
  unfold Exact at hexact
  rw [h] at hexact
  exact absurd (hexact _ (List.mem_cons_self ..)) (by decide)

end GlobalClaimExtension

end IndexProtocol
