import IndexProtocol.Fees.Streaming
import IndexProtocol.Nav.Module
import IndexProtocol.ScaledPool

/-! What backs the shares of a SetToken with NAV issuance and streaming fees.

A SetToken is strongly collateralised when its balance of every component pays the
unit of every share before the unit is rounded. Issuing and redeeming against a
reserve asset, whatever the valuation, and accruing fees keep that: each of them
changes the supply, and moves the multiplier against it. -/
namespace IndexProtocol
open Evm PreciseUnitMath ModuleBase

namespace World
variable {χ : Type}

/-- The balance of every component covers the unit of every share before it is rounded. -/
def StronglyCollateralised (w : World χ) : Prop :=
  ∀ component ∈ w.setToken.components,
    w.setToken.defaultPositionVirtualUnit component * w.setToken.positionMultiplier *
        w.setToken.totalSupply ≤
      (w.balance component : Int) * 10 ^ 36

instance (w : World χ) : Decidable w.StronglyCollateralised :=
  List.decidableBAll _ w.setToken.components

/-- The same of one token, in natural numbers. -/
def Backs (w : World χ) (component : Address) : Prop :=
  ScaledCovered preciseUnit (w.setToken.defaultPositionVirtualUnit component).toNat
    w.setToken.positionMultiplier.toNat (w.balance component) w.setToken.totalSupply

variable {w v : World χ}

theorem backs_iff (hwf : w.setToken.WellFormed) {component : Address} :
    w.Backs component ↔
      w.setToken.defaultPositionVirtualUnit component * w.setToken.positionMultiplier *
          w.setToken.totalSupply ≤
        (w.balance component : Int) * 10 ^ 36 := by
  obtain ⟨value, hvalue⟩ := Int.eq_ofNat_of_zero_le (hwf.sound.default_nonneg component)
  obtain ⟨multiplier, hmultiplier⟩ := Int.eq_ofNat_of_zero_le hwf.multiplier_pos.le
  have hvalue' : w.setToken.defaultPositionVirtualUnit component = value := hvalue
  have hscale : (10 : Int) ^ 36 = (preciseUnit * preciseUnit : Nat) := by decide
  rw [Backs, ScaledCovered, hvalue', hmultiplier, Int.toNat_natCast, Int.toNat_natCast, hscale,
    Nat.mul_assoc (w.balance component)]
  norm_cast

theorem stronglyCollateralised_iff (hwf : w.setToken.WellFormed) :
    w.StronglyCollateralised ↔ ∀ component, w.Backs component := by
  constructor
  · intro h component
    by_cases hc : component ∈ w.setToken.components
    · exact (backs_iff hwf).mpr (h component hc)
    · -- What is not a component has no unit.
      have hnone : ¬0 < w.setToken.defaultPositionVirtualUnit component :=
        fun hpos => hc (hwf.mem_components.mpr (.inl hpos))
      rw [Backs, show (w.setToken.defaultPositionVirtualUnit component).toNat = 0 by omega,
        ScaledCovered, Nat.zero_mul, Nat.zero_mul]
      exact Nat.zero_le _
  · intro h component _
    exact (backs_iff hwf).mp (h component)

/-- One component is given a new unit, and the others are rescaled. -/
theorem StronglyCollateralised.step (reserveAsset : Address)
    (h : ∀ component, w.Backs component) (hwf : v.setToken.WellFormed)
    (hothers : ∀ component, component ≠ reserveAsset →
      v.setToken.defaultPositionVirtualUnit component =
          w.setToken.defaultPositionVirtualUnit component ∧
        w.balance component ≤ v.balance component)
    (hshrink : v.setToken.positionMultiplier.toNat * v.setToken.totalSupply ≤
      w.setToken.positionMultiplier.toNat * w.setToken.totalSupply)
    (hreserve : v.Backs reserveAsset) : v.StronglyCollateralised := by
  refine (stronglyCollateralised_iff hwf).mpr fun component => ?_
  by_cases hc : component = reserveAsset
  · rw [hc]
    exact hreserve
  · obtain ⟨hvalue, hbalance⟩ := hothers component hc
    rw [Backs, hvalue]
    exact (h component).rescale hbalance hshrink

/-- Units stay as they are, and the multiplier moves against the supply. -/
theorem StronglyCollateralised.rescale (h : w.StronglyCollateralised) (hw : w.setToken.WellFormed)
    (hv : v.setToken.WellFormed)
    (hpositions : v.setToken.componentPositions = w.setToken.componentPositions)
    (hbalance : ∀ component, w.balance component ≤ v.balance component)
    (hshrink : v.setToken.positionMultiplier.toNat * v.setToken.totalSupply ≤
      w.setToken.positionMultiplier.toNat * w.setToken.totalSupply) :
    v.StronglyCollateralised := by
  refine (stronglyCollateralised_iff hv).mpr fun component => ?_
  have hbacks := (stronglyCollateralised_iff hw).mp h component
  rw [Backs, SetToken.defaultPositionVirtualUnit, hpositions]
  exact ScaledCovered.rescale hbacks (hbalance component) hshrink

end World

namespace SetToken
variable {s : SetToken} {component c : Address} {unit : Int}

theorem setDefaultUnit_virtualUnit_same :
    (s.setDefaultUnit component unit).defaultPositionVirtualUnit component = unit := by
  simp [setDefaultUnit, defaultPositionVirtualUnit]

theorem setDefaultUnit_virtualUnit_of_ne (hne : c ≠ component) :
    (s.setDefaultUnit component unit).defaultPositionVirtualUnit c =
      s.defaultPositionVirtualUnit c := by
  simp [setDefaultUnit, defaultPositionVirtualUnit, hne]

end SetToken

namespace CustomOracleNavIssuanceModule
variable {χ : Type} {module : Address} {oracles : NavOracles χ} {w u v : NavWorld χ}
  {sender recipient reserveAsset : Address} {info : ActionInfo}

/-! ### Multiplier and unit -/

/-- The multiplier for a new supply is rounded down. -/
theorem scaledMultiplier_eq {s : SetToken} (hm : 0 < s.positionMultiplier) {previous new : Nat}
    {multiplier : Int} (h : scaledMultiplier s previous new = .ok multiplier) :
    multiplier.toNat = s.positionMultiplier.toNat * previous / new := by
  obtain ⟨m, hsm⟩ := Int.eq_ofNat_of_zero_le hm.le
  simp only [scaledMultiplier, bind_eq_ok, SafeCast.toInt256_eq_ok, SignedSafeMath.mul_eq_ok,
    SignedSafeMath.div_eq_ok] at h
  obtain ⟨_, ⟨_, rfl⟩, _, ⟨_, rfl⟩, _, ⟨_, rfl⟩, _, _, rfl⟩ := h
  rw [hsm, Int.toNat_natCast]
  exact Int.toNat_natCast (m * previous / new)

/-- What is tracked of the reserve asset is held. -/
theorem existingReserve_le (hwf : w.setToken.WellFormed) (h : w.Backs reserveAsset)
    {existing : Nat}
    (hexisting : existingReserve w reserveAsset w.setToken.totalSupply = .ok existing) :
    existing ≤ w.balance reserveAsset := by
  obtain ⟨value, hvalue⟩ := Int.eq_ofNat_of_zero_le (hwf.sound.default_nonneg reserveAsset)
  obtain ⟨multiplier, hmultiplier⟩ := Int.eq_ofNat_of_zero_le hwf.multiplier_pos.le
  have hvalue' : w.setToken.defaultPositionVirtualUnit reserveAsset = value := hvalue
  simp only [existingReserve, bind_eq_ok, SetToken.getDefaultPositionRealUnit_eq_ok,
    SafeCast.toUint256_eq_ok, preciseMul_eq_ok] at hexisting
  obtain ⟨_, ⟨_, rfl⟩, unit, hunit, _, rfl⟩ := hexisting
  have hfloor : unit = value * multiplier / preciseUnit := by
    rw [SetToken.defaultRealUnit, SetToken.scale, hvalue', hmultiplier, ← preciseUnit_cast] at hunit
    exact (Int.ofNat_inj.mp hunit).symm
  rw [World.Backs, hvalue', hmultiplier, Int.toNat_natCast, Int.toNat_natCast] at h
  rw [hfloor]
  exact h.amount_le preciseUnit_pos

/-- What the edits of a call leave. -/
structure Edited (w v : NavWorld χ) (reserveAsset : Address) (info : ActionInfo) : Prop where
  wellFormed : v.setToken.WellFormed
  self : v.setToken.self = w.setToken.self
  tokens : v.tokens = w.tokens
  rest : v.rest = w.rest
  totalSupply : v.setToken.totalSupply = w.setToken.totalSupply
  multiplier : v.setToken.positionMultiplier = info.newPositionMultiplier
  others : ∀ component, component ≠ reserveAsset →
    v.setToken.defaultPositionVirtualUnit component =
      w.setToken.defaultPositionVirtualUnit component
  reserve : (v.setToken.defaultPositionVirtualUnit reserveAsset).toNat =
    info.newReservePositionUnit * preciseUnit / v.setToken.positionMultiplier.toNat

theorem editPositions_eq (hwf : w.setToken.WellFormed)
    (h : editPositions module w reserveAsset info = .ok v) : Edited w v reserveAsset info := by
  simp only [editPositions, bind_eq_ok] at h
  obtain ⟨u, hmultiplier, hunit⟩ := h
  obtain ⟨s, hs, rfl⟩ := World.callSetToken_eq_ok.mp hmultiplier
  obtain ⟨t, ht, rfl⟩ := World.callSetToken_eq_ok.mp hunit
  have hswf : s.WellFormed := SetToken.editPositionMultiplier_wellFormed hwf hs
  have htwf : t.WellFormed := SetToken.editDefaultPosition_wellFormed hswf ht
  obtain ⟨_, _, hscaled⟩ := SetToken.editPositionMultiplier_eq_ok.mp hs
  obtain ⟨l, unit, hconvert, _, htrack, _⟩ := SetToken.editDefaultPosition_eq hswf ht
  obtain ⟨_, hvalue, _⟩ :=
    (SetToken.convertRealToVirtualUnit_eq_ok hswf.multiplier_pos).mp hconvert
  obtain ⟨m, hm⟩ := Int.eq_ofNat_of_zero_le hswf.multiplier_pos.le
  subst htrack
  refine ⟨htwf, ?_, rfl, rfl, ?_, ?_, fun component hne => ?_, ?_⟩
  · show s.self = _
    rw [← hscaled]
  · show s.totalSupply = _
    rw [← hscaled]
    rfl
  · show s.positionMultiplier = _
    rw [← hscaled]
  · show ((s.withComponents l).setDefaultUnit reserveAsset unit).defaultPositionVirtualUnit
      component = _
    rw [SetToken.setDefaultUnit_virtualUnit_of_ne hne, ← hscaled]
    rfl
  · show (((s.withComponents l).setDefaultUnit reserveAsset unit).defaultPositionVirtualUnit
      reserveAsset).toNat = _ / s.positionMultiplier.toNat
    rw [SetToken.setDefaultUnit_virtualUnit_same, ← hvalue, hm, Int.toNat_natCast,
      ← preciseUnit_cast]
    exact Int.toNat_natCast (info.newReservePositionUnit * preciseUnit / m)

/-! ### Balances -/

/-- The SetToken receives the net flow and pays no fee. -/
theorem transferCollateral_balance (hsender : sender ≠ w.setToken.self)
    (h : transferCollateralAndHandleFees module w sender reserveAsset info = .ok v) :
    w.SameBut v reserveAsset ∧
      w.balance reserveAsset + info.netFlowQuantity ≤ v.balance reserveAsset := by
  have hfee {w v : NavWorld χ} {recipient : Address} {quantity : Nat}
      (hsender : sender ≠ w.setToken.self)
      (h : (if 0 < quantity then
          ExplicitERC20.transferFrom w module reserveAsset sender recipient quantity
        else pure w) = .ok v) :
      w.SameBut v reserveAsset ∧ w.balance reserveAsset ≤ v.balance reserveAsset := by
    by_cases hquantity : 0 < quantity
    · rw [if_pos hquantity] at h
      obtain ⟨hsame, hmoved, _⟩ := World.transferFrom_moved h
      have hself := hmoved w.setToken.self
      rw [if_neg (Ne.symm hsender)] at hself
      refine ⟨hsame, ?_⟩
      rw [World.balance, World.balance, hsame.setToken]
      omega
    · rw [if_neg hquantity] at h
      obtain rfl := pure_eq_ok.mp h
      exact ⟨.refl w reserveAsset, le_rfl⟩
  simp only [transferCollateralAndHandleFees, bind_eq_ok] at h
  obtain ⟨w₁, hnet, w₂, hprotocol, hmanager⟩ := h
  obtain ⟨hsame₁, hbalance₁⟩ := World.transferFrom_balance hnet
  obtain ⟨hsame₂, hbalance₂⟩ := hfee (by rwa [hsame₁.setToken]) hprotocol
  obtain ⟨hsame₃, hbalance₃⟩ := hfee (by rwa [hsame₂.setToken, hsame₁.setToken]) hmanager
  exact ⟨(hsame₁.trans hsame₂).trans hsame₃, by omega⟩

/-- What a redemption pays out leaves the SetToken, the fees included. -/
theorem redeemTransfers_balance {w₁ : NavWorld χ}
    (hnet : Invoke.strictInvokeTransfer w module reserveAsset recipient info.netFlowQuantity =
      .ok w₁)
    (hfees : handleRedemptionFees module w₁ reserveAsset info = .ok v) :
    w.SameBut v reserveAsset ∧
      v.balance reserveAsset + (info.netFlowQuantity + info.protocolFees + info.managerFee) =
        w.balance reserveAsset := by
  simp only [handleRedemptionFees, bind_eq_ok] at hfees
  obtain ⟨w₂, hprotocol, hmanager⟩ := hfees
  obtain ⟨hsame₁, _, hbalance₁⟩ := World.strictInvokeTransfer_balance hnet
  obtain ⟨hsame₂, _, hbalance₂⟩ := World.strictInvokeTransfer_balance hprotocol
  obtain ⟨hsame₃, _, hbalance₃⟩ := World.strictInvokeTransfer_balance hmanager
  exact ⟨(hsame₁.trans hsame₂).trans hsame₃, by omega⟩

/-! ### What a call computes -/

/-- The unit of a new supply is that of what is tracked and the net flow. -/
theorem createIssuanceInfo_eq {quantity : Nat}
    (h : createIssuanceInfo module oracles w reserveAsset quantity = .ok info) :
    ∃ existing, existingReserve w reserveAsset w.setToken.totalSupply = .ok existing ∧
      info.newSetTokenSupply = info.setTokenQuantity + w.setToken.totalSupply ∧
      scaledMultiplier w.setToken w.setToken.totalSupply info.newSetTokenSupply =
        .ok info.newPositionMultiplier ∧
      info.newReservePositionUnit =
        (existing + info.netFlowQuantity) * preciseUnit / info.newSetTokenSupply := by
  simp only [createIssuanceInfo, getIssuePositionMultiplier, getIssuePositionUnit, bind_eq_ok,
    SafeMath.add_eq_ok, preciseDiv_eq_ok, pure_eq_ok] at h
  obtain ⟨_, _, _, _, _, ⟨_, ⟨_, rfl⟩, _, hscaled, rfl⟩, _,
    ⟨existing, hexisting, _, ⟨_, rfl⟩, _, _, rfl⟩, rfl⟩ := h
  exact ⟨existing, hexisting, rfl, hscaled, rfl⟩

/-- What flows out is tracked, and the unit is that of the rest. -/
theorem createRedemptionInfo_eq {quantity : Nat}
    (h : createRedemptionInfo module oracles w reserveAsset quantity = .ok info) :
    ∃ existing, existingReserve w reserveAsset w.setToken.totalSupply = .ok existing ∧
      info.newSetTokenSupply = w.setToken.totalSupply - quantity ∧
      scaledMultiplier w.setToken w.setToken.totalSupply info.newSetTokenSupply =
        .ok info.newPositionMultiplier ∧
      info.netFlowQuantity + info.protocolFees + info.managerFee ≤ existing ∧
      info.newReservePositionUnit =
        (existing - (info.netFlowQuantity + info.protocolFees + info.managerFee)) * preciseUnit /
          info.newSetTokenSupply := by
  simp only [createRedemptionInfo, getRedeemPositionMultiplier, getRedeemPositionUnit, bind_eq_ok,
    SafeMath.add_eq_ok, SafeMath.sub_eq_ok, preciseDiv_eq_ok, require_eq_ok, pure_eq_ok] at h
  obtain ⟨_, _, _, _, _, ⟨_, ⟨_, rfl⟩, _, hscaled, _, _, rfl⟩, _,
    ⟨existing, hexisting, _, ⟨_, rfl⟩, _, ⟨_, rfl⟩, _, houtflow, _, ⟨_, rfl⟩, _, _, rfl⟩, rfl⟩ := h
  exact ⟨existing, hexisting, rfl, hscaled, houtflow, rfl⟩

/-! ### Issue and redeem -/

/-- Transfers and edits, and then shares that are minted: the supply is the new one in the end, and
the amount that the reserve asset's unit is made of is held. -/
theorem strong_of_edited {t : NavWorld χ} {amount : Nat} (hm : 0 < w.setToken.positionMultiplier)
    (hw : ∀ component, w.Backs component) (hpositions : w.setToken.SamePositions u.setToken)
    (hbalance : ∀ component, component ≠ reserveAsset → w.balance component ≤ u.balance component)
    (hedited : Edited u v reserveAsset info)
    (hshares : v.setToken.SamePositions t.setToken ∧ t.tokens = v.tokens)
    (hscaled : scaledMultiplier w.setToken w.setToken.totalSupply t.setToken.totalSupply =
      .ok info.newPositionMultiplier)
    (hunit : info.newReservePositionUnit = amount * preciseUnit / t.setToken.totalSupply)
    (hamount : amount ≤ u.balance reserveAsset) : t.StronglyCollateralised := by
  obtain ⟨hsame, htokens⟩ := hshares
  have hheld (component : Address) : t.balance component = u.balance component := by
    rw [World.balance, World.balance, htokens, hedited.tokens, hsame.self, hedited.self]
  have hvalue (component : Address) : t.setToken.defaultPositionVirtualUnit component =
      v.setToken.defaultPositionVirtualUnit component := by
    rw [SetToken.defaultPositionVirtualUnit, SetToken.defaultPositionVirtualUnit,
      hsame.componentPositions]
  have hmultiplier : t.setToken.positionMultiplier = info.newPositionMultiplier :=
    hsame.positionMultiplier.trans hedited.multiplier
  refine World.StronglyCollateralised.step reserveAsset hw (hedited.wellFormed.of_same hsame)
    (fun component hne => ⟨?_, ?_⟩) ?_ ?_
  · rw [hvalue, hedited.others component hne, SetToken.defaultPositionVirtualUnit,
      SetToken.defaultPositionVirtualUnit, hpositions.componentPositions]
  · rw [hheld]
    exact hbalance component hne
  · rw [hmultiplier, scaledMultiplier_eq hm hscaled]
    exact ScaledCovered.multiplier_shrinks
  · rw [World.Backs, hvalue, hedited.reserve, hsame.positionMultiplier, hunit, hheld]
    exact ScaledCovered.of_amount hamount

theorem issue_strong {hooks : Address → NavIssuanceHook χ} {quantity minQuantity : Nat}
    (hwf : w.setToken.WellFormed) (hw : w.StronglyCollateralised)
    (hsender : sender ≠ w.setToken.self)
    (h : issue module oracles hooks w sender reserveAsset quantity minQuantity recipient = .ok v) :
    v.setToken.WellFormed ∧ v.StronglyCollateralised := by
  rw [World.stronglyCollateralised_iff hwf] at hw
  simp only [issue, handleIssueStateUpdates, bind_eq_ok] at h
  obtain ⟨_, _, _, _, _, _, info, hinfo, _, _, u, htransfer, u₁, hedit, hmint⟩ := h
  obtain ⟨existing, hexisting, hnew, hscaled, hunit⟩ := createIssuanceInfo_eq hinfo
  obtain ⟨t, ht, rfl⟩ := World.callSetToken_eq_ok.mp hmint
  obtain ⟨hsame, hbalance⟩ := transferCollateral_balance hsender htransfer
  have hedited := editPositions_eq (hsame.setToken ▸ hwf) hedit
  obtain ⟨hminted, hsupply⟩ := SetToken.mint_totalSupply ht
  refine ⟨hedited.wellFormed.of_same hminted, ?_⟩
  have htotal : t.totalSupply = info.newSetTokenSupply := by
    rw [hsupply, hedited.totalSupply, hsame.setToken, hnew, Nat.add_comm]
  rw [← htotal] at hscaled hunit
  refine strong_of_edited hwf.multiplier_pos hw (hsame.setToken ▸ .refl _)
    (fun component hne => (hsame.balance_of_ne hne).ge) hedited ⟨hminted, rfl⟩ hscaled hunit ?_
  have hheld := existingReserve_le hwf (hw reserveAsset) hexisting
  omega

theorem redeem_strong {hooks : Address → NavIssuanceHook χ} {quantity minQuantity : Nat}
    (hwf : w.setToken.WellFormed) (hw : w.StronglyCollateralised)
    (h : redeem module oracles hooks w sender reserveAsset quantity minQuantity recipient =
      .ok v) :
    v.setToken.WellFormed ∧ v.StronglyCollateralised := by
  rw [World.stronglyCollateralised_iff hwf] at hw
  simp only [redeem, bind_eq_ok] at h
  obtain ⟨_, _, _, _, _, _, info, hinfo, _, _, u, hburn, u₁, hnet, u₂, hfees, hedit⟩ := h
  obtain ⟨existing, hexisting, hnew, hscaled, houtflow, hunit⟩ := createRedemptionInfo_eq hinfo
  obtain ⟨t, ht, rfl⟩ := World.callSetToken_eq_ok.mp hburn
  obtain ⟨hburned, hsupply⟩ := SetToken.burn_totalSupply ht
  obtain ⟨hsame, hbalance⟩ := redeemTransfers_balance hnet hfees
  have hedited := editPositions_eq (hsame.setToken ▸ hwf.of_same hburned) hedit
  refine ⟨hedited.wellFormed, ?_⟩
  have htotal : v.setToken.totalSupply = info.newSetTokenSupply := by
    rw [hedited.totalSupply, hsame.setToken, hnew]
    exact Nat.eq_sub_of_add_eq hsupply
  rw [← htotal] at hscaled hunit
  have hkept (component : Address) :
      World.balance { w with setToken := t } component = w.balance component := by
    rw [World.balance, World.balance, hburned.self]
  refine strong_of_edited hwf.multiplier_pos hw (hsame.setToken ▸ hburned)
    (fun component hne => ?_) hedited ⟨.refl _, rfl⟩ hscaled hunit ?_
  · rw [hsame.balance_of_ne hne, hkept]
  · have hheld := existingReserve_le hwf (hw reserveAsset) hexisting
    rw [hkept] at hbalance
    omega

end CustomOracleNavIssuanceModule

/-! ### Runs -/

/-- A SetToken with NAV issuance and streaming fees. -/
abbrev NavFund := NavWorld FeeState

namespace NavFund

/-- A call, with what it reads of oracles or of the time. -/
inductive Action where
  | issue (oracles : NavOracles FeeState) (sender recipient reserveAsset : Address)
      (reserveAssetQuantity minSetTokenReceiveQuantity : Nat)
  | redeem (oracles : NavOracles FeeState) (sender recipient reserveAsset : Address)
      (setTokenQuantity minReserveReceiveQuantity : Nat)
  | accrueFee (timestamp : Nat)
  /-- The manager changes settings of either module, in whichever way. -/
  | configure (settings : NavState FeeState)
  /-- Approvals and protocol fees change. -/
  | changeController (controller : Controller)
  /-- Holders of a token move it; the SetToken does so only when a module invokes it. -/
  | transferToken (token caller recipient : Address) (amount : Nat)

variable (nav streaming : Address) (hooks : Address → NavIssuanceHook FeeState)

/-- The SetToken calls out only where a module has it do so, and is never the issuer. -/
def step (w : NavFund) : Action → Result NavFund
  | .issue oracles sender recipient reserveAsset quantity minQuantity => do
    require (sender ≠ w.setToken.self) "Not the SetToken"
    CustomOracleNavIssuanceModule.issue nav oracles hooks w sender reserveAsset quantity minQuantity
      recipient
  | .redeem oracles sender recipient reserveAsset quantity minQuantity =>
    CustomOracleNavIssuanceModule.redeem nav oracles hooks w sender reserveAsset quantity
      minQuantity recipient
  | .accrueFee timestamp => do
    let (s, state) ←
      StreamingFeeModule.accrueFee streaming timestamp w.setToken w.rest.others
    pure { w with setToken := s, rest := { w.rest with others := state } }
  | .configure settings => pure { w with rest := settings }
  | .changeController controller =>
    pure { w with setToken := { w.setToken with controller := controller } }
  | .transferToken token caller recipient amount => do
    require (caller ≠ w.setToken.self) "Not the SetToken"
    w.callToken token (·.transfer caller recipient amount)

variable {nav streaming hooks} {s : SetToken} {w v : NavFund}

theorem accrueFee_strong {timestamp : Nat} {result : SetToken × FeeState}
    (hwf : w.setToken.WellFormed) (hw : w.StronglyCollateralised) (settings : NavState FeeState)
    (h : StreamingFeeModule.accrueFee streaming timestamp w.setToken w.rest.others = .ok result) :
    result.1.WellFormed ∧
      World.StronglyCollateralised { w with setToken := result.1, rest := settings } := by
  rcases StreamingFeeModule.accrueFee_eq h with hsame | hfee
  · rw [hsame]
    exact ⟨hwf, hw⟩
  · have hwf' := StreamingFeeModule.actualizeFee_wellFormed hwf hfee
    obtain ⟨_, _, _, _, haccrued⟩ := StreamingFeeModule.actualizeFee_eq hfee
    obtain ⟨_, _, hshrink⟩ := haccrued.shrinks hwf.multiplier_pos
    refine ⟨hwf', hw.rescale hwf hwf' haccrued.componentPositions (fun component => ?_) hshrink⟩
    rw [World.balance, World.balance, haccrued.self]

/-- One step, whatever it is, keeps the collateral. -/
theorem step_strong {a : Action} (h : w.setToken.WellFormed ∧ w.StronglyCollateralised)
    (hstep : step nav streaming hooks w a = .ok v) :
    v.setToken.WellFormed ∧ v.StronglyCollateralised := by
  cases a with
  | issue oracles sender recipient reserveAsset quantity minQuantity =>
    simp only [step, bind_eq_ok, require_eq_ok, exists_const] at hstep
    exact CustomOracleNavIssuanceModule.issue_strong h.1 h.2 hstep.1 hstep.2
  | redeem oracles sender recipient reserveAsset quantity minQuantity =>
    exact CustomOracleNavIssuanceModule.redeem_strong h.1 h.2 hstep
  | accrueFee timestamp =>
    simp only [step, bind_eq_ok, pure_eq_ok] at hstep
    obtain ⟨result, hresult, rfl⟩ := hstep
    exact accrueFee_strong h.1 h.2 _ hresult
  | configure settings =>
    simp only [step, pure_eq_ok] at hstep
    subst hstep
    exact h
  | changeController controller =>
    simp only [step, pure_eq_ok] at hstep
    subst hstep
    have hwf : SetToken.WellFormed { w.setToken with controller := controller } :=
      h.1.of_same ⟨rfl, rfl, rfl, rfl⟩
    exact ⟨hwf, h.2.rescale h.1 hwf rfl (fun _ => le_rfl) le_rfl⟩
  | transferToken token caller recipient amount =>
    simp only [step, bind_eq_ok, require_eq_ok, exists_const] at hstep
    obtain ⟨hcaller, hcall⟩ := hstep
    obtain ⟨hsame, ht⟩ := World.callToken_sameBut hcall
    have hwf : v.setToken.WellFormed := hsame.setToken ▸ h.1
    refine ⟨hwf, h.2.rescale h.1 hwf (by rw [hsame.setToken]) (fun component => ?_)
      (by rw [hsame.setToken])⟩
    by_cases hc : component = token
    · have hmoved := (Erc20.transferInternal_moved ht).1 w.setToken.self
      rw [if_neg (Ne.symm hcaller)] at hmoved
      rw [hc, World.balance, World.balance, hsame.setToken]
      omega
    · exact (hsame.balance_of_ne hc).ge

/-- **The collateral theorem.** Where the balances of a SetToken cover every unit before it is
rounded, they do so after any issues, redemptions and accruals, at any valuation. -/
theorem stronglyCollateralised_of_runs {controller : Controller} {factory self manager : Address}
    {components modules : List Address} {units : List Int} {calls : List SetToken.Call}
    {actions : List Action}
    (hcreate : SetTokenCreator.create controller factory self components units modules manager =
      .ok s)
    (hcalls : runs SetToken.call s calls = .ok w.setToken) (h : w.StronglyCollateralised)
    (hrun : runs (step nav streaming hooks) w actions = .ok v) : v.StronglyCollateralised := by
  have hwf := SetToken.reachable_wellFormed hcreate hcalls
  exact (runs_invariant (fun w : NavFund => w.setToken.WellFormed ∧ w.StronglyCollateralised)
    (fun _ _ _ => step_strong) ⟨hwf, h⟩ hrun).2

/-! A share of two units, bought with a fee, a premium and a tenth of the first share, and sold
half a year later. -/

def exampleController : Controller where
  isInitialized := true
  isSet := fun _ => false
  isFactory := fun a => a == 7
  isModule := fun a => a == 10 || a == 11
  fees := fun _ index => if index = 0 then 10 ^ 17 else 0
  feeRecipient := 6
  integrationAdapter := fun _ _ => 0

/-- One share, held at 5. -/
def exampleCalls : List SetToken.Call :=
  [.initializeModule 10, .initializeModule 11, .mint 10 5 (10 ^ 18)]

def exampleSet : Result SetToken :=
  SetTokenCreator.create exampleController 7 20 [1, 2] [10 ^ 18, 10 ^ 18] [10, 11] 9

/-- What backs the share, and as much again at 5, for which module 10 has an allowance. -/
def exampleFund (s : SetToken) : NavFund where
  setToken := s
  tokens := fun _ =>
    { balances := fun a => if a = 5 ∨ a = 20 then 10 ^ 18 else 0
      allowances := fun a b => if a = 5 ∧ b = 10 then 10 ^ 18 else 0
      totalSupply := 2 * 10 ^ 18 }
  rest :=
    { settings := ⟨0, 0, 0, 8, fun _ => 10 ^ 16, 10 ^ 15, 10 ^ 17⟩
      isReserveAsset := fun a => a == 1
      others := ⟨8, 5 * 10 ^ 16, 2 * 10 ^ 16, 0⟩ }

/-- A valuer that counts two quotes to a share. -/
def exampleOracles : NavOracles FeeState where
  defaultSetValuer := 30
  calculateSetTokenValuation := fun _ _ _ => pure (2 * 10 ^ 18)
  decimals := fun _ => 18

def noHooks (_ : Address) : NavIssuanceHook FeeState where
  invokePreIssueHook := fun _ _ _ _ _ => pure ()
  invokePreRedeemHook := fun _ _ _ _ => pure ()

def exampleActions : List Action :=
  [.issue exampleOracles 5 5 1 (10 ^ 17) 0, .accrueFee 15778800,
    .redeem exampleOracles 5 5 1 (10 ^ 16) 0]

theorem stronglyCollateralised_of_runs_example :
    ∃ s w v, exampleSet = .ok s ∧ runs SetToken.call s exampleCalls = .ok w ∧
      (exampleFund w).StronglyCollateralised ∧
      runs (step 10 11 noHooks) (exampleFund w) exampleActions = .ok v ∧
      v.StronglyCollateralised := by
  have h : (do
      let s ← exampleSet
      let w ← runs SetToken.call s exampleCalls
      let _ ← runs (step 10 11 noHooks) (exampleFund w) exampleActions
      require (exampleFund w).StronglyCollateralised "") = .ok () := by decide +kernel
  simp only [bind_eq_ok, require_eq_ok] at h
  obtain ⟨s, hs, w, hw, v, hv, hstrong⟩ := h
  have hset : runs SetToken.call s exampleCalls = .ok (exampleFund w).setToken := hw
  exact ⟨s, w, v, hs, hw, hstrong, hv, stronglyCollateralised_of_runs hs hset hstrong hv⟩

end NavFund

end IndexProtocol
