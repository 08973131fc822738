import IndexProtocol.Auction.Module
import IndexProtocol.Issuance.Fees
import IndexProtocol.Manager.Upgrades

/-! Hooks that cap the supply of a SetToken.

The manager's hook of the issuance modules sees the quantity that the issuer
gets, before anything is minted. The modules then mint the fee on top of it. -/
namespace IndexProtocol
open Evm PreciseUnitMath ModuleBase

/-- What both hooks check. -/
def checkSupplyCap (supplyCap : Nat) (s : SetToken) (issueQuantity : Nat) : Result Unit := do
  let newSupply ← SafeMath.add s.totalSupply issueQuantity
  require (newSupply ≤ supplyCap) "Supply cap exceeded"

structure SupplyCapIssuanceHook where
  owner : Address
  supplyCap : Nat

namespace SupplyCapIssuanceHook
variable (x : SupplyCapIssuanceHook)

def invokePreIssueHook (s : SetToken) (issueQuantity : Nat) : Result Unit :=
  checkSupplyCap x.supplyCap s issueQuantity

def updateSupplyCap (sender : Address) (newCap : Nat) : Result SupplyCapIssuanceHook := do
  Ownable.onlyOwner x.owner sender
  pure { x with supplyCap := newCap }

end SupplyCapIssuanceHook

structure SupplyCapAllowedCallerIssuanceHook where
  owner : Address
  supplyCap : Nat
  anyoneCallable : Bool
  callAllowList : Address → Bool

namespace SupplyCapAllowedCallerIssuanceHook
variable (x : SupplyCapAllowedCallerIssuanceHook)

/-- `origin` is the account that sent the transaction. -/
def validateAllowedContractCaller (origin caller : Address) : Result Unit :=
  require (caller = origin ∨ x.anyoneCallable = true ∨ x.callAllowList caller = true)
    "Contract not permitted to call"

def invokePreIssueHook (origin : Address) (s : SetToken) (issueQuantity : Nat) (sender : Address) :
    Result Unit := do
  x.validateAllowedContractCaller origin sender
  checkSupplyCap x.supplyCap s issueQuantity

def updateSupplyCap (sender : Address) (newCap : Nat) :
    Result SupplyCapAllowedCallerIssuanceHook := do
  Ownable.onlyOwner x.owner sender
  pure { x with supplyCap := newCap }

def updateCallerStatus (sender : Address) (callers : List Address) (statuses : List Bool) :
    Result SupplyCapAllowedCallerIssuanceHook := do
  Ownable.onlyOwner x.owner sender
  AddressArrayUtils.validatePairsWithArray callers statuses
  pure { x with
    callAllowList := (callers.zip statuses).foldl
      (fun list (caller, status) => Function.update list caller status) x.callAllowList }

def updateAnyoneCallable (sender : Address) (status : Bool) :
    Result SupplyCapAllowedCallerIssuanceHook := do
  Ownable.onlyOwner x.owner sender
  pure { x with anyoneCallable := status }

end SupplyCapAllowedCallerIssuanceHook

/-- Either of the two. -/
inductive SupplyCapHook where
  | all (x : SupplyCapIssuanceHook)
  | allowedCaller (x : SupplyCapAllowedCallerIssuanceHook)

namespace SupplyCapHook

def supplyCap : SupplyCapHook → Nat
  | all x => x.supplyCap
  | allowedCaller x => x.supplyCap

/-- As the issuance modules call it, in a transaction of `origin`. -/
def invokePreIssueHook {χ : Type} (x : SupplyCapHook) (origin : Address) :
    PreIssueHook (IssuanceState χ) :=
  fun w issueQuantity sender _ =>
    match x with
    | all x => x.invokePreIssueHook w.setToken issueQuantity
    | allowedCaller x => x.invokePreIssueHook origin w.setToken issueQuantity sender

def updateSupplyCap (x : SupplyCapHook) (sender : Address) (newCap : Nat) : Result SupplyCapHook :=
  match x with
  | all x => all <$> x.updateSupplyCap sender newCap
  | allowedCaller x => allowedCaller <$> x.updateSupplyCap sender newCap

/-- What the hook lets pass fits below the cap. -/
theorem invokePreIssueHook_le {χ : Type} {x : SupplyCapHook} {origin sender recipient : Address}
    {w : IssuanceWorld χ} {issueQuantity : Nat} {u : Unit}
    (h : x.invokePreIssueHook origin w issueQuantity sender recipient = .ok u) :
    w.setToken.totalSupply + issueQuantity ≤ x.supplyCap := by
  cases x with
  | all x =>
    simp only [invokePreIssueHook, SupplyCapIssuanceHook.invokePreIssueHook, checkSupplyCap,
      bind_eq_ok, SafeMath.add_eq_ok, require_eq_ok] at h
    obtain ⟨_, ⟨_, rfl⟩, hle⟩ := h
    exact hle
  | allowedCaller x =>
    simp only [invokePreIssueHook, SupplyCapAllowedCallerIssuanceHook.invokePreIssueHook,
      checkSupplyCap, bind_eq_ok, SafeMath.add_eq_ok, require_eq_ok] at h
    obtain ⟨_, _, _, ⟨_, rfl⟩, hle⟩ := h
    exact hle

end SupplyCapHook

/-! ### Runs -/

/-- A SetToken and the hook that its manager gave to the issuance module. -/
structure CappedWorld (χ : Type) where
  hook : SupplyCapHook
  issuance : IssuanceWorld χ

/-- An issuance: what it was called on, and what it left. -/
structure Issued (χ : Type) where
  before : CappedWorld χ
  quantity : Nat
  after : CappedWorld χ

namespace SupplyCap
variable {χ : Type} (version : IssuanceVersion) (module : Address)
  (hooks : Address → ModuleIssuanceHook χ)

inductive Action (χ : Type) where
  | issue (origin sender : Address) (quantity : Nat) (recipient : Address)
  | redeem (sender : Address) (quantity : Nat) (recipient : Address)
  | updateSupplyCap (sender : Address) (newCap : Nat)
  | updateCallerStatus (sender : Address) (callers : List Address) (statuses : List Bool)
  | updateAnyoneCallable (sender : Address) (status : Bool)
  /-- Fees, positions, tokens and the hook's owner change, but not which hook it is. -/
  | elsewhere (w : CappedWorld χ)

structure Recorded (χ : Type) where
  world : CappedWorld χ
  /-- The latest first. -/
  issued : List (Issued χ)

/-- The issuance module calls the hook. -/
def Hooked (w : IssuanceWorld χ) : Prop := w.rest.issuanceSettings.managerIssuanceHook ≠ 0

def record (r : Recorded χ) : Action χ → Result (Recorded χ)
  | .issue origin sender quantity recipient => do
    let w ← version.issue module hooks (fun _ => r.world.hook.invokePreIssueHook origin)
      r.world.issuance sender quantity recipient
    let after := { r.world with issuance := w }
    pure ⟨after, ⟨r.world, quantity, after⟩ :: r.issued⟩
  | .redeem sender quantity recipient => do
    let w ← version.redeem module hooks r.world.issuance sender quantity recipient
    pure { r with world := { r.world with issuance := w } }
  | .updateSupplyCap sender newCap => do
    let hook ← r.world.hook.updateSupplyCap sender newCap
    pure { r with world := { r.world with hook := hook } }
  | .updateCallerStatus sender callers statuses =>
    match r.world.hook with
    | .all _ => revert ""
    | .allowedCaller x => do
      let x ← x.updateCallerStatus sender callers statuses
      pure { r with world := { r.world with hook := .allowedCaller x } }
  | .updateAnyoneCallable sender status =>
    match r.world.hook with
    | .all _ => revert ""
    | .allowedCaller x => do
      let x ← x.updateAnyoneCallable sender status
      pure { r with world := { r.world with hook := .allowedCaller x } }
  | .elsewhere w => do
    require (w.issuance.rest.issuanceSettings.managerIssuanceHook ≠ 0) ""
    pure { r with world := w }

/-- The supply is at most the cap in force. -/
def Capped (a : Issued χ) : Prop :=
  a.after.issuance.setToken.totalSupply ≤ a.after.hook.supplyCap

/-- The shares that are minted for the fee of a quantity: all of it, unless the protocol takes all. -/
def mintedFee (w : IssuanceWorld χ) (quantity : Nat) : Nat :=
  if totalFee w.rest.issuanceSettings true quantity * protocolFeeSplit module w.setToken /
      preciseUnit = totalFee w.rest.issuanceSettings true quantity then 0
  else totalFee w.rest.issuanceSettings true quantity

/-- The fee fits into what supply and quantity leave of the cap. -/
def Room (a : Issued χ) : Prop :=
  mintedFee module a.before.issuance a.quantity ≤
    a.before.hook.supplyCap - (a.before.issuance.setToken.totalSupply + a.quantity)

instance (a : Issued χ) : Decidable (Room module a) := inferInstanceAs (Decidable (_ ≤ _))

variable {version module hooks} {w v : IssuanceWorld χ} {sender recipient : Address}
  {quantity : Nat}

/-- What is issued was let pass by the manager's hook. -/
theorem issue_hook {managerHooks : Address → PreIssueHook (IssuanceState χ)} (hhooked : Hooked w)
    (h : version.issue module hooks managerHooks w sender quantity recipient = .ok v) :
    ∃ u, managerHooks w.rest.issuanceSettings.managerIssuanceHook w quantity sender recipient =
      .ok u := by
  have hcall : ∃ u, DebtIssuanceModule.callManagerPreIssueHooks managerHooks w quantity sender
      recipient = .ok u := by
    cases version with
    | v1 =>
      simp only [IssuanceVersion.issue, DebtIssuanceModule.issue, bind_eq_ok] at h
      obtain ⟨_, _, _, _, u, hu, _⟩ := h
      exact ⟨u, hu⟩
    | v2 =>
      simp only [IssuanceVersion.issue, DebtIssuanceModuleV2.issue, bind_eq_ok] at h
      obtain ⟨_, _, _, _, u, hu, _⟩ := h
      exact ⟨u, hu⟩
  unfold Hooked at hhooked
  rwa [DebtIssuanceModule.callManagerPreIssueHooks, if_pos hhooked] at hcall

theorem resolveFees_rest {managerFee protocolFee : Nat}
    (h : DebtIssuanceModule.resolveFees module w managerFee protocolFee = .ok v) :
    v.rest = w.rest := by
  unfold DebtIssuanceModule.resolveFees at h
  split_ifs at h
  · simp only [bind_eq_ok] at h
    obtain ⟨u, hfirst, hsecond⟩ := h
    exact (callMint_credited hsecond).2.2.trans (callMint_credited hfirst).2.2
  · simp only [bind_eq_ok, pure_eq_ok] at h
    obtain ⟨u, hfirst, rfl⟩ := h
    exact (callMint_credited hfirst).2.2
  · obtain rfl : w = v := by simpa using h
    rfl

section Kept
variable (hkeep : ∀ m, (hooks m).KeepsShares)
include hkeep

/-- What an issuance does to the supply. -/
theorem issue_supply {managerHooks : Address → PreIssueHook (IssuanceState χ)}
    (h : version.issue module hooks managerHooks w sender quantity recipient = .ok v) :
    v.setToken.totalSupply = w.setToken.totalSupply + quantity + mintedFee module w quantity := by
  obtain ⟨w₁, w₂, total, managerFee, protocolFee, hkept, hfees, hresolved, hmint⟩ :=
    IssuanceVersion.issue_eq hkeep h
  obtain ⟨hprotocol, hsum, _⟩ := calculateTotalFees_eq_ok hfees
  obtain ⟨hminted, hnone⟩ := resolveFees_credited hresolved
  obtain ⟨⟨hsupply, _⟩, _, _⟩ := callMint_credited hmint
  have hsupply' : v.setToken.totalSupply = w₂.setToken.totalSupply + quantity := hsupply
  have hkeptSupply : w₁.setToken.totalSupply = w.setToken.totalSupply :=
    congrArg Erc20.totalSupply hkept.erc20
  rw [mintedFee, hprotocol]
  rcases Nat.eq_zero_or_pos managerFee with hzero | hpos
  · -- the protocol takes all, or there is nothing to take
    obtain rfl := hnone hzero
    rw [if_pos (by omega)]
    omega
  · rw [if_neg (by omega)]
    have := (hminted hpos).1
    omega

theorem issue_hooked {managerHooks : Address → PreIssueHook (IssuanceState χ)}
    (hhooked : Hooked w)
    (h : version.issue module hooks managerHooks w sender quantity recipient = .ok v) :
    Hooked v := by
  obtain ⟨w₁, w₂, _, _, _, hkept, _, hresolved, hmint⟩ := IssuanceVersion.issue_eq hkeep h
  unfold Hooked
  rw [(callMint_credited hmint).2.2, resolveFees_rest hresolved, hkept.issuanceSettings]
  exact hhooked

theorem redeem_hooked (hhooked : Hooked w)
    (h : version.redeem module hooks w sender quantity recipient = .ok v) : Hooked v := by
  obtain ⟨w₀, w₁, w₂, _, _, _, hkept, hburn, hkept', _, hresolved⟩ :=
    IssuanceVersion.redeem_eq hkeep h
  obtain ⟨_, _, rfl⟩ := World.callSetToken_eq_ok.mp hburn
  unfold Hooked
  rw [resolveFees_rest hresolved, hkept'.issuanceSettings, hkept.issuanceSettings]
  exact hhooked

/-- The hook lets quantities pass that fit; the supply is capped exactly if the fee fits too. -/
theorem issue_capped_iff {hook : SupplyCapHook} {origin : Address} (hhooked : Hooked w)
    (h : version.issue module hooks (fun _ => hook.invokePreIssueHook origin) w sender quantity
      recipient = .ok v) :
    v.setToken.totalSupply ≤ hook.supplyCap ↔
      mintedFee module w quantity ≤ hook.supplyCap - (w.setToken.totalSupply + quantity) := by
  obtain ⟨_, hpass⟩ := issue_hook hhooked h
  have hle := SupplyCapHook.invokePreIssueHook_le hpass
  rw [issue_supply hkeep h]
  omega

/-- What holds in every state of a run. -/
structure Sound (module : Address) (r : Recorded χ) : Prop where
  hooked : Hooked r.world.issuance
  capped_iff : ∀ a ∈ r.issued, Capped a ↔ Room module a

theorem record_sound {action : Action χ} {s t : Recorded χ} (hs : Sound module s)
    (ht : record version module hooks s action = .ok t) : Sound module t := by
  cases action with
  | issue origin sender quantity recipient =>
    simp only [record, bind_eq_ok, pure_eq_ok] at ht
    obtain ⟨v, hv, rfl⟩ := ht
    refine ⟨issue_hooked hkeep hs.hooked hv, fun a ha => ?_⟩
    cases List.mem_cons.mp ha with
    | inr hbefore => exact hs.capped_iff a hbefore
    | inl hnow =>
      rw [hnow]
      exact issue_capped_iff hkeep hs.hooked hv
  | redeem sender quantity recipient =>
    simp only [record, bind_eq_ok, pure_eq_ok] at ht
    obtain ⟨_, hv, rfl⟩ := ht
    exact ⟨redeem_hooked hkeep hs.hooked hv, hs.capped_iff⟩
  | updateSupplyCap sender newCap =>
    simp only [record, bind_eq_ok, pure_eq_ok] at ht
    obtain ⟨_, _, rfl⟩ := ht
    exact ⟨hs.hooked, hs.capped_iff⟩
  | updateCallerStatus sender callers statuses =>
    simp only [record] at ht
    split at ht
    · cases ht
    · simp only [bind_eq_ok, pure_eq_ok] at ht
      obtain ⟨_, _, rfl⟩ := ht
      exact ⟨hs.hooked, hs.capped_iff⟩
  | updateAnyoneCallable sender status =>
    simp only [record] at ht
    split at ht
    · cases ht
    · simp only [bind_eq_ok, pure_eq_ok] at ht
      obtain ⟨_, _, rfl⟩ := ht
      exact ⟨hs.hooked, hs.capped_iff⟩
  | elsewhere w =>
    simp only [record, bind_eq_ok, require_eq_ok, pure_eq_ok] at ht
    obtain ⟨_, hhooked, rfl⟩ := ht
    exact ⟨hhooked, hs.capped_iff⟩

/-- **The cap.** In every run, the supply is at most the cap after every issuance, exactly if the
fee of every issuance fits into what supply and quantity leave of the cap. -/
theorem capped_iff {w : CappedWorld χ} {actions : List (Action χ)} {r : Recorded χ}
    (hhooked : Hooked w.issuance)
    (hr : runs (record version module hooks) ⟨w, []⟩ actions = .ok r) :
    (∀ a ∈ r.issued, Capped a) ↔ ∀ a ∈ r.issued, Room module a := by
  have hsound : Sound module r :=
    runs_invariant (Sound module) (fun _ _ _ hs ht => record_sound hkeep hs ht)
      ⟨hhooked, fun a ha => absurd ha List.not_mem_nil⟩ hr
  exact forall₂_congr hsound.capped_iff

end Kept

/-! A cap of 2000 and a fee of one percent. -/

def exampleCapped : Result (CappedWorld Unit) := do
  let w ← IssuanceVersion.exampleWorld (3 * 10 ^ 17)
  pure ⟨.all ⟨1, 2000⟩, { w with
    rest := { w.rest with
      issuanceSettings := { w.rest.issuanceSettings with managerIssuanceHook := 40 } } }⟩

/-- Two quantities, each with room for its fee. -/
theorem capped_iff_example : ∃ w r, exampleCapped = .ok w ∧
    runs (record .v1 10 IssuanceVersion.exampleHooks) ⟨w, []⟩
      [.issue 5 5 1000 5, .issue 5 5 980 5] = .ok r ∧
    r.issued.map (fun a : Issued Unit => mintedFee 10 a.before.issuance a.quantity) = [9, 10] ∧
    ∀ a ∈ r.issued, Capped a := by
  have h : (do
      let w ← exampleCapped
      let r ← runs (record .v1 10 IssuanceVersion.exampleHooks) ⟨w, []⟩
        [.issue 5 5 1000 5, .issue 5 5 980 5]
      require (w.issuance.rest.issuanceSettings.managerIssuanceHook ≠ 0 ∧
        r.issued.map (fun a : Issued Unit => mintedFee 10 a.before.issuance a.quantity) = [9, 10] ∧
        ∀ a ∈ r.issued, Room 10 a) "") = .ok () := by
    decide +kernel
  simp only [bind_eq_ok, require_eq_ok] at h
  obtain ⟨w, hw, r, hr, hhooked, hfees, hroom⟩ := h
  exact ⟨w, r, hw, hr, hfees,
    (capped_iff IssuanceVersion.exampleHooks_keepsShares hhooked hr).mpr hroom⟩

/-- The second quantity fits exactly, and its fee comes on top. -/
theorem not_capped : ∃ w r, exampleCapped = .ok w ∧
    runs (record .v1 10 IssuanceVersion.exampleHooks) ⟨w, []⟩
      [.issue 5 5 1000 5, .issue 5 5 990 5] = .ok r ∧
    r.world.hook.supplyCap = 2000 ∧ r.world.issuance.setToken.totalSupply = 2009 ∧
    ¬∀ a ∈ r.issued, Capped a := by
  have h : (do
      let w ← exampleCapped
      let r ← runs (record .v1 10 IssuanceVersion.exampleHooks) ⟨w, []⟩
        [.issue 5 5 1000 5, .issue 5 5 990 5]
      require (r.world.hook.supplyCap = 2000 ∧
        r.world.issuance.setToken.totalSupply = 2009 ∧
        ∃ a ∈ r.issued, a.after.hook.supplyCap < a.after.issuance.setToken.totalSupply) "") =
      .ok () := by
    decide +kernel
  simp only [bind_eq_ok, require_eq_ok] at h
  obtain ⟨w, hw, r, hr, hcap, hsupply, a, ha, hlt⟩ := h
  exact ⟨w, r, hw, hr, hcap, hsupply, fun hcapped => absurd (hcapped a ha) (Nat.not_le.mpr hlt)⟩

end SupplyCap

end IndexProtocol
