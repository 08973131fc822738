import IndexProtocol.Auction.Targets

/-! What a bid does to the unit of its component.

The size of an auction is the distance of two amounts: what the position is worth,
rounded down, and what the target is worth, rounded up. A purchase is sized so
that the distance is left after the protocol's fee. The unit is then computed from
the balance that changed, and written through the multiplier. All these roundings
together stay on this side of the target, but for a balance that is gone: it makes
the unit zero also where the position was worth more than the balance. -/
namespace IndexProtocol
open Evm PreciseUnitMath ModuleBase

namespace AuctionRebalanceModuleV1

/-! ### Amounts -/

section Amounts
variable {supply target lacking fee quantity : Nat}

/-- A purchase that is no larger than the auction leaves no more than was lacking. -/
theorem net_le (hfee : fee < preciseUnit)
    (hquantity : quantity ≤ lacking * preciseUnit / (preciseUnit - fee)) :
    quantity ≤ lacking + quantity * fee / preciseUnit := by
  by_cases hle : quantity ≤ lacking
  · exact Nat.le_add_right_of_le hle
  · have hsized : quantity * (preciseUnit - fee) ≤ lacking * preciseUnit :=
      (Nat.le_div_iff_mul_le (by omega)).mp hquantity
    have hsurplus : (quantity - lacking) * preciseUnit ≤ quantity * fee := by
      rw [Nat.mul_sub] at hsized
      rw [Nat.sub_mul]
      omega
    have := (Nat.le_div_iff_mul_le preciseUnit_pos).mpr hsurplus
    omega

/-- A purchase of the auction's size leaves all that was lacking. -/
theorem le_net (hfee : fee < preciseUnit)
    (hquantity : quantity = lacking * preciseUnit / (preciseUnit - fee)) :
    lacking + quantity * fee / preciseUnit ≤ quantity := by
  have hleft : 0 < preciseUnit - fee := by omega
  have hlow : lacking * preciseUnit < (quantity + 1) * (preciseUnit - fee) := by
    rw [hquantity]
    exact Rounding.lt_floor_succ_mul _ hleft
  have hle : lacking ≤ quantity := by
    rw [hquantity, Nat.le_div_iff_mul_le hleft]
    exact Nat.mul_le_mul_left _ (Nat.sub_le _ _)
  have hsurplus : quantity * fee < (quantity - lacking + 1) * preciseUnit := by
    rw [Nat.add_mul, Nat.mul_sub, Nat.one_mul] at hlow
    have hfees : quantity * fee ≤ quantity * preciseUnit := Nat.mul_le_mul_left _ hfee.le
    rw [Nat.add_mul, Nat.sub_mul, Nat.one_mul]
    omega
  have := (Nat.div_lt_iff_lt_mul preciseUnit_pos).mpr hsurplus
  omega

/-- At least the target's worth makes at least the target. -/
theorem target_le_unit {notional : Nat} (hsupply : 0 < supply)
    (h : supply * target ⌈/⌉ preciseUnit ≤ notional) :
    target ≤ notional * preciseUnit / supply := by
  rw [Nat.le_div_iff_mul_le hsupply, Nat.mul_comm]
  exact (Rounding.le_ceil_mul _ preciseUnit_pos).trans (Nat.mul_le_mul_right _ h)

/-- At most the target's worth makes less than one share's part of a unit more than the target. -/
theorem unit_lt {notional : Nat} (h : notional ≤ supply * target ⌈/⌉ preciseUnit) :
    notional * preciseUnit / supply * supply < target * supply + preciseUnit := by
  have hceil := Rounding.ceil_mul_lt (supply * target) preciseUnit_pos
  have hmul : notional * preciseUnit ≤ (supply * target ⌈/⌉ preciseUnit) * preciseUnit :=
    Nat.mul_le_mul_right _ h
  have hfloor := Nat.div_mul_le_self (notional * preciseUnit) supply
  rw [Nat.mul_comm target]
  omega

/-- Where there is a whole share, the target's worth makes the target. -/
theorem unit_eq (hsupply : preciseUnit ≤ supply) :
    (supply * target ⌈/⌉ preciseUnit) * preciseUnit / supply = target := by
  have hpos : 0 < supply := preciseUnit_pos.trans_le hsupply
  have hle : target ≤ (supply * target ⌈/⌉ preciseUnit) * preciseUnit / supply :=
    target_le_unit hpos le_rfl
  have hlt : (supply * target ⌈/⌉ preciseUnit) * preciseUnit / supply * supply <
      target * supply + preciseUnit := unit_lt le_rfl
  by_contra hne
  have hsucc : target + 1 ≤ (supply * target ⌈/⌉ preciseUnit) * preciseUnit / supply := by omega
  have := Nat.mul_le_mul_right supply hsucc
  rw [Nat.add_mul, Nat.one_mul] at this
  omega

end Amounts

/-! ### The terms of an auction -/

variable {adapters : Address → PriceAdapter} {module : Address} {w v : AuctionWorld}
  {component : Address}

/-- What the position of a component is worth, rounded down. -/
def currentNotional (w : AuctionWorld) (component : Address) : Nat :=
  w.setToken.totalSupply * currentUnit w component / preciseUnit

/-- What its target is worth, rounded up. -/
def targetNotional (w : AuctionWorld) (component : Address) : Nat :=
  w.setToken.totalSupply * normalizedTarget w component ⌈/⌉ preciseUnit

/-- The share that the protocol takes of what is received. -/
def protocolFee (module : Address) (w : AuctionWorld) : Nat :=
  w.setToken.controller.fees module protocolFeeIndex

theorem calculateAuctionSizeAndDirection_eq {isSell : Bool} {size : Nat}
    (hwf : w.setToken.WellFormed)
    (h : calculateAuctionSizeAndDirection module w component w.setToken.totalSupply =
      .ok (isSell, size)) :
    Readable w component ∧ currentUnit w component ≠ normalizedTarget w component ∧
      if isSell = true then targetNotional w component + size = currentNotional w component
      else currentNotional w component ≤ targetNotional w component ∧
        protocolFee module w < preciseUnit ∧
        size = (targetNotional w component - currentNotional w component) * preciseUnit /
          (preciseUnit - protocolFee module w) := by
  simp only [calculateAuctionSizeAndDirection, getUnitsAndNotionalAmounts,
    Position.getDefaultTotalNotional, bind_eq_ok, require_eq_ok, exists_const, pure_eq_ok,
    preciseMul_eq_ok, preciseMulCeil_eq_ok, getDefaultPositionRealUnit_eq_ok hwf,
    getNormalizedTargetUnit_eq_ok hwf] at h
  obtain ⟨_, ⟨_, ⟨hunit, rfl⟩, _, ⟨htarget, hmultiplier, rfl⟩, _, ⟨_, rfl⟩, _, ⟨_, rfl⟩, rfl⟩, hne,
    h⟩ := h
  refine ⟨⟨hunit, htarget, hmultiplier⟩, hne, ?_⟩
  dsimp only at h
  change (if targetNotional w component < currentNotional w component then _ else _) = _ at h
  by_cases hsell : targetNotional w component < currentNotional w component
  · rw [if_pos hsell] at h
    simp only [bind_eq_ok, SafeMath.sub_eq_ok, pure_eq_ok, Prod.mk.injEq] at h
    obtain ⟨_, ⟨hle, rfl⟩, rfl, rfl⟩ := h
    rw [if_pos rfl]
    exact Nat.add_sub_cancel' hle
  · rw [if_neg hsell] at h
    simp only [bind_eq_ok, SafeMath.sub_eq_ok, preciseDiv_eq_ok, pure_eq_ok, Prod.mk.injEq] at h
    obtain ⟨_, ⟨hle, rfl⟩, _, ⟨_, rfl⟩, _, ⟨_, hleft, rfl⟩, rfl, rfl⟩ := h
    rw [if_neg Bool.false_ne_true]
    exact ⟨hle, Nat.sub_pos_iff_lt.mp hleft, rfl⟩

/-! ### One edit of a position -/

/-- A unit written through the multiplier loses at most one step, and can be read. -/
theorem unit_written {s : SetToken} {newUnit : Nat} {unit : Int} (hm : 0 < s.positionMultiplier)
    (h : s.convertRealToVirtualUnit newUnit = .ok unit) :
    InInt256 (unit * s.positionMultiplier) ∧ SetToken.scale s.positionMultiplier unit ≤ newUnit ∧
      (newUnit : Int) - SetToken.unitStep s.positionMultiplier ≤
        SetToken.scale s.positionMultiplier unit ∧
      (0 < newUnit → 0 < SetToken.scale s.positionMultiplier unit) := by
  obtain ⟨_, rfl, hpos⟩ := (SetToken.convertRealToVirtualUnit_eq_ok hm).mp h
  have hreadable : InInt256 ((newUnit : Int) * preciseUnitInt / s.positionMultiplier *
      s.positionMultiplier) := by
    cases Nat.eq_zero_or_pos newUnit with
    | inl hzero =>
      rw [hzero, Nat.cast_zero, Int.zero_mul, Int.zero_ediv, Int.zero_mul]
      decide
    | inr hunit => exact (hpos (Int.natCast_pos.mpr hunit)).1
  obtain ⟨hle, hlost⟩ := SetToken.scale_bounds hm h
  exact ⟨hreadable, hle, hlost, fun hunit => (hpos (Int.natCast_pos.mpr hunit)).2⟩

/-- The unit of a balance that changed, where what was not tracked before stays untracked. -/
theorem calculateAndEditDefaultPosition_eq {s t : SetToken} {sender : Address}
    {balance supply before : Nat}
    (h : Position.calculateAndEditDefaultPosition s sender component balance supply before = .ok t) :
    ∃ tracked newUnit, (s.defaultRealUnit component).toNat * supply / preciseUnit = tracked ∧
      (balance - (before - tracked)) * preciseUnit / supply = newUnit ∧
      (0 < balance → 0 < supply ∧ tracked ≤ before ∧ before - tracked ≤ balance) ∧
      Position.editDefaultPosition s sender component newUnit = .ok t := by
  simp only [Position.calculateAndEditDefaultPosition, bind_eq_ok,
    SetToken.getDefaultPositionRealUnit_eq_ok, SafeCast.toUint256_eq_ok] at h
  obtain ⟨_, ⟨_, rfl⟩, unit, hunit, newUnit, hnew, hedit⟩ := h
  rw [hunit, Int.toNat_natCast]
  by_cases hbalance : 0 < balance
  · rw [if_pos hbalance] at hnew
    simp only [Position.calculateDefaultEditPositionUnit, bind_eq_ok, preciseMul_eq_ok,
      SafeMath.sub_eq_ok, preciseDiv_eq_ok] at hnew
    obtain ⟨_, ⟨_, rfl⟩, _, ⟨hle, rfl⟩, _, ⟨hle', rfl⟩, _, hsupply, rfl⟩ := hnew
    exact ⟨_, _, rfl, rfl, fun _ => ⟨hsupply, hle, hle'⟩, hedit⟩
  · rw [if_neg hbalance] at hnew
    obtain rfl := pure_eq_ok.mp hnew
    refine ⟨_, _, rfl, ?_, fun hpos => absurd hpos hbalance, hedit⟩
    rw [show balance = 0 by omega, Nat.zero_sub, Nat.zero_mul, Nat.zero_div]

/-- Only positions of the SetToken changed, and of the default ones at most that of the token. -/
structure Edited (w v : AuctionWorld) (token : Address) : Prop where
  only : w.setToken.OnlyPositions v.setToken
  wellFormed : v.setToken.WellFormed
  tokens : v.tokens = w.tokens
  rest : v.rest = w.rest
  units : ∀ c, c ≠ token →
    v.setToken.defaultPositionVirtualUnit c = w.setToken.defaultPositionVirtualUnit c

theorem Edited.balance {token other : Address} (h : Edited w v token) :
    v.balance other = w.balance other := by
  rw [World.balance, World.balance, h.tokens, h.only.self]

theorem Edited.currentUnit {token other : Address} (h : Edited w v token) (hne : other ≠ token) :
    currentUnit v other = currentUnit w other := by
  rw [AuctionRebalanceModuleV1.currentUnit, AuctionRebalanceModuleV1.currentUnit,
    SetToken.defaultRealUnit, SetToken.defaultRealUnit, h.only.positionMultiplier, h.units other hne]

/-- A unit for a balance that went from `before` to `after`, and what was written for it. -/
structure Rewritten (multiplier : Int) (supply notional before after newUnit written : Nat) :
    Prop where
  computed : (after - (before - notional)) * preciseUnit / supply = newUnit
  covered : 0 < after → 0 < supply ∧ notional ≤ before ∧ before - notional ≤ after
  le : written ≤ newUnit
  le_step : newUnit ≤ written + SetToken.unitStep multiplier
  pos : 0 < newUnit → 0 < written

namespace Rewritten
variable {multiplier : Int} {supply notional before after newUnit written target quantity : Nat}
  (h : Rewritten multiplier supply notional before after newUnit written)
include h

theorem eq_zero (hafter : after = 0) : written = 0 := by
  have hcomputed := h.computed
  have hle := h.le
  rw [hafter, Nat.zero_sub, Nat.zero_mul, Nat.zero_div] at hcomputed
  omega

/-- A sale of no more than the distance to the target leaves the target. -/
theorem target_le (hafter : 0 < after) (hsale : after + quantity = before)
    (hquantity : supply * target ⌈/⌉ preciseUnit + quantity ≤ notional) : target ≤ newUnit := by
  obtain ⟨hsupply, hcovered, _⟩ := h.covered hafter
  rw [← h.computed]
  apply target_le_unit hsupply
  omega

/-- What is worth no more than the target is less than one share's part of a unit above it. -/
theorem above_lt (hamount : after - (before - notional) ≤ supply * target ⌈/⌉ preciseUnit) :
    ((written : Int) - target) * supply < preciseUnitInt := by
  have hlt := unit_lt hamount
  have hwritten : written * supply ≤ newUnit * supply := Nat.mul_le_mul_right _ h.le
  rw [h.computed] at hlt
  have hbound : written * supply < target * supply + preciseUnit := hwritten.trans_lt hlt
  rw [← preciseUnit_cast, Int.sub_mul]
  exact Int.sub_left_lt_of_lt_add (by exact_mod_cast hbound)

/-- What is written is worth no more than the balance without what was not tracked. -/
theorem credited : written * supply ≤ (after - (before - notional)) * preciseUnit :=
  calc written * supply ≤ newUnit * supply := Nat.mul_le_mul_right _ h.le
    _ ≤ (after - (before - notional)) * preciseUnit := by
      rw [← h.computed]
      exact Nat.div_mul_le_self _ _

/-- The balance covers the unit that is written for it. -/
theorem backed : written * supply ≤ after * preciseUnit :=
  h.credited.trans (Nat.mul_le_mul_right _ (Nat.sub_le _ _))

theorem le_succ (hmultiplier : multiplier ≤ preciseUnitInt) : newUnit ≤ written + 1 :=
  h.le_step.trans (Nat.add_le_add_left (SetToken.unitStep_le_one hmultiplier) _)

/-- Two roundings take less than one unit and one step. -/
theorem credited_lt (hsupply : 0 < supply) : (after - (before - notional)) * preciseUnit <
    (written + SetToken.unitStep multiplier + 1) * supply := by
  have hlt := Rounding.lt_floor_succ_mul ((after - (before - notional)) * preciseUnit) hsupply
  rw [h.computed] at hlt
  exact hlt.trans_le (Nat.mul_le_mul_right _ (Nat.succ_le_succ h.le_step))

theorem credited_lt_two (hmultiplier : multiplier ≤ preciseUnitInt) (hsupply : 0 < supply) :
    (after - (before - notional)) * preciseUnit < (written + 2) * supply := by
  refine (h.credited_lt hsupply).trans_le (Nat.mul_le_mul_right _ ?_)
  exact Nat.succ_le_succ (Nat.add_le_add_left (SetToken.unitStep_le_one hmultiplier) _)

end Rewritten

/-- A unit written to a position changes no other one, and loses at most one step. -/
theorem editDefaultPosition_written {s t : SetToken} {sender token : Address} {newUnit : Nat}
    (hwf : s.WellFormed) (h : Position.editDefaultPosition s sender token newUnit = .ok t) :
    s.OnlyPositions t ∧ t.WellFormed ∧
      (∀ c, c ≠ token → t.defaultPositionVirtualUnit c = s.defaultPositionVirtualUnit c) ∧
      InInt256 (t.defaultPositionVirtualUnit token * t.positionMultiplier) ∧
      (t.defaultRealUnit token).toNat ≤ newUnit ∧
      newUnit ≤ (t.defaultRealUnit token).toNat + SetToken.unitStep s.positionMultiplier ∧
      (0 < newUnit → 0 < (t.defaultRealUnit token).toNat) := by
  have honly := SetToken.editDefaultPosition_only h
  have hwf' := SetToken.editDefaultPosition_wellFormed hwf h
  obtain ⟨l, unit, hunit, _, ht', _⟩ := SetToken.editDefaultPosition_eq hwf h
  have hvirtual (c : Address) : t.defaultPositionVirtualUnit c =
      Function.update s.defaultPositionVirtualUnit token unit c := by
    have hportfolio : t.portfolio = s.portfolio.setDefault token unit := by
      rw [ht', SetToken.setDefaultUnit_portfolio, SetToken.withComponents_portfolio]
    exact congrFun (congrArg Portfolio.default hportfolio) c
  have hreal : t.defaultRealUnit token = SetToken.scale s.positionMultiplier unit := by
    rw [SetToken.defaultRealUnit, hvirtual, Function.update_self, honly.positionMultiplier]
  obtain ⟨hin, hle, hstep, hpos⟩ := unit_written hwf.multiplier_pos hunit
  rw [← hreal] at hle hstep hpos
  refine ⟨honly, hwf', fun c hc => ?_, ?_, Int.toNat_le.mpr hle, ?_, fun hnew => ?_⟩
  · rw [hvirtual, Function.update_of_ne hc]
  · rw [hvirtual, Function.update_self, honly.positionMultiplier]
    exact hin
  · omega
  · have := hpos hnew
    omega

/-- An edit of a position changes no other one, and writes this one for its balance. -/
theorem position_rewritten {s t : SetToken} {sender token : Address} {balance supply before : Nat}
    (hwf : s.WellFormed)
    (h : Position.calculateAndEditDefaultPosition s sender token balance supply before = .ok t) :
    s.OnlyPositions t ∧ t.WellFormed ∧
      (∀ c, c ≠ token → t.defaultPositionVirtualUnit c = s.defaultPositionVirtualUnit c) ∧
      InInt256 (t.defaultPositionVirtualUnit token * t.positionMultiplier) ∧
      ∃ newUnit, Rewritten s.positionMultiplier supply
        (supply * (s.defaultRealUnit token).toNat / preciseUnit) before balance newUnit
        (t.defaultRealUnit token).toNat := by
  obtain ⟨tracked, newUnit, htracked, hcomputed, hcovered, hedit⟩ :=
    calculateAndEditDefaultPosition_eq h
  obtain ⟨honly, hwf', hothers, hin, hle, hstep, hpos⟩ := editDefaultPosition_written hwf hedit
  rw [Nat.mul_comm] at htracked
  subst htracked
  exact ⟨honly, hwf', hothers, hin, newUnit, hcomputed, hcovered, hle, hstep, hpos⟩

theorem updatePosition_eq {info : BidInfo} {token : Address} {before : Nat}
    (hwf : w.setToken.WellFormed) (hsupply : info.setTotalSupply = w.setToken.totalSupply)
    (h : updatePosition module w info token before = .ok v) :
    Edited w v token ∧
      InInt256 (v.setToken.defaultPositionVirtualUnit token * v.setToken.positionMultiplier) ∧
      ∃ newUnit, Rewritten w.setToken.positionMultiplier w.setToken.totalSupply
      (currentNotional w token) before (w.balance token) newUnit (currentUnit v token) := by
  obtain ⟨t, ht, rfl⟩ := World.callSetToken_eq_ok.mp h
  rw [hsupply] at ht
  obtain ⟨honly, hwf', hunits, hin, newUnit, hnew⟩ := position_rewritten hwf ht
  exact ⟨⟨honly, hwf', rfl, rfl, hunits⟩, hin, newUnit, hnew⟩

/-! ### The bid -/

section Bid
variable {sender quoteAsset : Address} {amount limit : Nat} {isSell : Bool}

/-- What the info of a bid says of its component. -/
theorem createBidInfo_eq {info : BidInfo}
    (h : createBidInfo adapters module w component amount limit isSell = .ok info) :
    ∃ size quantity,
      calculateAuctionSizeAndDirection module w component w.setToken.totalSupply =
        .ok (isSell, size) ∧
      settledQuantity amount size = .ok quantity ∧
      info.setTotalSupply = w.setToken.totalSupply ∧
      info.preBidTokenSentBalance = w.balance info.sendToken ∧
      info.preBidTokenReceivedBalance = w.balance info.receiveToken ∧
      if isSell = true then info.sendToken = component ∧
        info.receiveToken = (rebalance w).quoteAsset ∧ info.quantitySentBySet = quantity
      else info.sendToken = (rebalance w).quoteAsset ∧ info.receiveToken = component ∧
        info.quantityReceivedBySet = quantity := by
  simp only [createBidInfo, bind_eq_ok, require_eq_ok, exists_const, pure_eq_ok] at h
  obtain ⟨_, _, ⟨isSell', size⟩, hsize, rfl, quantity, hquantity, _, _, _, _, quote, _, _, _,
    rfl⟩ := h
  refine ⟨size, quantity, hsize, hquantity, rfl, rfl, rfl, ?_⟩
  cases isSell' with
  | true => exact ⟨rfl, rfl, rfl⟩
  | false => exact ⟨rfl, rfl, rfl⟩

/-- The transfers of a bid, with the protocol's fee. -/
theorem executeBid_eq {info : BidInfo} {w₁ w₂ : AuctionWorld} {fee : Nat}
    (hne : info.sendToken ≠ info.receiveToken)
    (hbefore : info.preBidTokenReceivedBalance = w.balance info.receiveToken)
    (hexecute : executeBid module w sender info = .ok w₁)
    (hfee : accrueProtocolFee module w₁ info = .ok (w₂, fee)) :
    w₂.setToken = w.setToken ∧ w₂.rest = w.rest ∧
      w₂.balance info.sendToken + info.quantitySentBySet = w.balance info.sendToken ∧
      w₂.balance info.receiveToken + info.quantityReceivedBySet * protocolFee module w / preciseUnit =
        w.balance info.receiveToken + info.quantityReceivedBySet := by
  simp only [executeBid, bind_eq_ok] at hexecute
  obtain ⟨w₀, hreceive, hsend⟩ := hexecute
  obtain ⟨hsame₀, hreceived⟩ := World.transferFrom_balance hreceive
  obtain ⟨hsame₁, _, hsent⟩ := World.strictInvokeTransfer_balance hsend
  simp only [accrueProtocolFee, getModuleFee, bind_eq_ok, SafeMath.sub_eq_ok, preciseMul_eq_ok,
    pure_eq_ok, Prod.mk.injEq] at hfee
  obtain ⟨exchanged, ⟨_, hexchanged⟩, _, ⟨_, hfee⟩, _, hpay, rfl, rfl⟩ := hfee
  obtain ⟨hsame₂, _, hpaid⟩ := World.strictInvokeTransfer_balance hpay
  have hset : w₁.setToken = w.setToken := hsame₁.setToken.trans hsame₀.setToken
  have hkept := hsame₁.balance_of_ne hne.symm
  have hexchanged' : exchanged = info.quantityReceivedBySet := by
    rw [← hexchanged, hbefore, hkept, hreceived, Nat.add_sub_cancel_left]
  refine ⟨hsame₂.setToken.trans hset, hsame₂.rest.trans (hsame₁.rest.trans hsame₀.rest), ?_, ?_⟩
  · rw [hsame₂.balance_of_ne hne, hsent, hsame₀.balance_of_ne hne]
  · rw [← hreceived, ← hkept, ← hpaid, ← hfee, hexchanged', hset]
    rfl

/-- What a bid leaves: of the component's balance, and of its unit. -/
structure Outcome (module : Address) (w v : AuctionWorld) (component : Address) (isSell : Bool)
    (quantity : Nat) : Prop where
  only : w.setToken.OnlyPositions v.setToken
  wellFormed : v.setToken.WellFormed
  rest : v.rest = w.rest
  notQuote : component ≠ (rebalance w).quoteAsset
  balance : if isSell = true then v.balance component + quantity = w.balance component
    else v.balance component + quantity * protocolFee module w / preciseUnit =
      w.balance component + quantity
  readable : InInt256
    (v.setToken.defaultPositionVirtualUnit component * v.setToken.positionMultiplier)
  unit : ∃ newUnit, Rewritten w.setToken.positionMultiplier w.setToken.totalSupply
    (currentNotional w component) (w.balance component) (v.balance component) newUnit
    (currentUnit v component)

theorem bid_eq (hwf : w.setToken.WellFormed)
    (h : bid adapters module w sender component quoteAsset amount limit isSell = .ok v) :
    ∃ size quantity,
      calculateAuctionSizeAndDirection module w component w.setToken.totalSupply =
        .ok (isSell, size) ∧
      settledQuantity amount size = .ok quantity ∧ Outcome module w v component isSell quantity := by
  simp only [bid, validateOnlyAllowedBidder, validateBidTargets, bind_eq_ok, require_eq_ok,
    exists_const, pure_eq_ok] at h
  obtain ⟨_, ⟨hquote, _⟩, info, hinfo, w₁, hexecute, ⟨w₂, fee⟩, hfee, ⟨v', _, _⟩, hupdate, rfl⟩ := h
  simp only [updatePositionState, bind_eq_ok, pure_eq_ok, Prod.mk.injEq] at hupdate
  obtain ⟨w₃, hsend, w₄, hreceive, _, _, _, _, rfl, _⟩ := hupdate
  obtain ⟨size, quantity, hsize, hquantity, hsupply, hsent, hreceived, htokens⟩ :=
    createBidInfo_eq hinfo
  have hne : info.sendToken ≠ info.receiveToken := by
    cases isSell with
    | true => exact htokens.1 ▸ htokens.2.1 ▸ hquote
    | false => exact htokens.1 ▸ htokens.2.1 ▸ hquote.symm
  obtain ⟨hset, hrest, hpaid, hgot⟩ := executeBid_eq hne hreceived hexecute hfee
  have hwf₂ : w₂.setToken.WellFormed := hset ▸ hwf
  rw [← hset] at hsupply
  obtain ⟨hedited₃, hin₃, hunit₃⟩ := updatePosition_eq hwf₂ hsupply hsend
  obtain ⟨hedited₄, hin₄, hunit₄⟩ := updatePosition_eq hedited₃.wellFormed
    (hsupply.trans hedited₃.only.totalSupply.symm) hreceive
  have hnotional (c : Address) : currentNotional w₂ c = currentNotional w c := by
    rw [currentNotional, currentNotional, currentUnit, currentUnit, hset]
  refine ⟨size, quantity, hsize, hquantity, ⟨?_, hedited₄.wellFormed, ?_, hquote, ?_, ?_, ?_⟩⟩
  · rw [← hset]
    exact hedited₃.only.trans hedited₄.only
  · rw [hedited₄.rest, hedited₃.rest, hrest]
  · rw [hedited₄.balance, hedited₃.balance]
    cases isSell with
    | true =>
      obtain ⟨rfl, _, rfl⟩ := htokens
      exact hpaid
    | false =>
      obtain ⟨_, rfl, rfl⟩ := htokens
      exact hgot
  · cases isSell with
    | true =>
      obtain ⟨rfl, _, _⟩ := htokens
      rw [hedited₄.units _ hne, hedited₄.only.positionMultiplier]
      exact hin₃
    | false =>
      obtain ⟨_, rfl, _⟩ := htokens
      exact hin₄
  · rw [hedited₄.balance, hedited₃.balance]
    cases isSell with
    | true =>
      -- The component is sent, so that its unit is written first.
      obtain ⟨rfl, _, _⟩ := htokens
      rw [hedited₄.currentUnit hne, ← hnotional, ← hset, ← hsent]
      exact hunit₃
    | false =>
      obtain ⟨_, rfl, _⟩ := htokens
      have hnotional₃ : currentNotional w₃ info.receiveToken =
          currentNotional w₂ info.receiveToken := by
        rw [currentNotional, currentNotional, hedited₃.currentUnit hne.symm,
          hedited₃.only.totalSupply]
      rw [hedited₃.only.positionMultiplier, hedited₃.only.totalSupply, hedited₃.balance, hnotional₃,
        hnotional, hset, hreceived] at hunit₄
      exact hunit₄

end Bid

/-! ### The target -/

/-- The unit is on this side of the target, and at it once the auction is settled. -/
structure OnTarget (w v : AuctionWorld) (component : Address) (isSell : Bool)
    (size quantity : Nat) : Prop where
  sold : isSell = true → (normalizedTarget w component : Int) - 1 ≤ currentUnit v component
  bought : isSell = false →
    ((currentUnit v component : Int) - normalizedTarget w component) * w.setToken.totalSupply <
      preciseUnitInt
  settled : preciseUnit ≤ w.setToken.totalSupply → quantity = size →
    targetUnmet v component = .ok false

/-- The bid leaves the SetToken nothing of the component. -/
def Emptied (w : AuctionWorld) (component : Address) (isSell : Bool) (quantity : Nat) : Prop :=
  if isSell = true then quantity = w.balance component
  else quantity = 0 ∧ w.balance component = 0

instance (w : AuctionWorld) (component : Address) (isSell : Bool) (quantity : Nat) :
    Decidable (Emptied w component isSell quantity) :=
  inferInstanceAs (Decidable (if isSell = true then _ else _))

/-- The unit may become zero. -/
structure ZeroAllowed (w : AuctionWorld) (component : Address) (isSell : Bool)
    (size quantity : Nat) : Prop where
  sold : isSell = true → normalizedTarget w component ≤ 1
  settled : preciseUnit ≤ w.setToken.totalSupply → quantity = size →
    normalizedTarget w component = 0

theorem settledQuantity_le {amount size quantity : Nat}
    (h : settledQuantity amount size = .ok quantity) : quantity ≤ size := by
  unfold settledQuantity at h
  split_ifs at h
  · exact (pure_eq_ok.mp h).ge
  · simp only [bind_eq_ok, require_eq_ok, exists_const, pure_eq_ok] at h
    obtain ⟨hle, rfl⟩ := h
    exact hle

section Target
variable {isSell : Bool} {size quantity : Nat}

theorem Outcome.normalizedTarget_eq (h : Outcome module w v component isSell quantity) :
    normalizedTarget v component = normalizedTarget w component := by
  rw [normalizedTarget, normalizedTarget, rebalance, rebalance, h.rest, h.only.positionMultiplier]

variable (hwf : w.setToken.WellFormed)
  (hsize : calculateAuctionSizeAndDirection module w component w.setToken.totalSupply =
    .ok (isSell, size))
  (h : Outcome module w v component isSell quantity)
include hwf hsize h

/-- The target can be compared with the unit that was written, but for one with none. -/
theorem Outcome.targetUnmet_iff : targetUnmet v component = .ok false ↔
    normalizedTarget w component ≤ currentUnit v component + 1 ∧
      currentUnit v component ≤ normalizedTarget w component + 1 ∧
        (normalizedTarget w component = 0 ↔ currentUnit v component = 0) := by
  have hreadable := (calculateAuctionSizeAndDirection_eq hwf hsize).1
  have hnotQuote : component ≠ (rebalance v).quoteAsset := by
    rw [rebalance, h.rest]
    exact h.notQuote
  have hreadable' : Readable v component := by
    refine ⟨h.readable, ?_, ?_⟩
    · rw [h.rest, h.only.positionMultiplier]
      exact hreadable.target
    · rw [rebalance, h.rest]
      exact hreadable.multiplier
  have htarget := h.normalizedTarget_eq
  rw [targetUnmet_eq_ok h.wellFormed, TargetEvaluates]
  constructor
  · rintro ⟨hevaluates, hmet⟩
    have hcompared := (hevaluates hnotQuote).2
    have hclose := (not_not.mp (of_decide_eq_false hmet.symm)).resolve_left hnotQuote
    omega
  · intro hclose
    refine ⟨fun _ => ⟨hreadable', by omega⟩, (decide_eq_false (not_not.mpr (.inr ?_))).symm⟩
    omega

theorem Outcome.balance_eq_zero_iff :
    v.balance component = 0 ↔ Emptied w component isSell quantity := by
  have hterms := (calculateAuctionSizeAndDirection_eq hwf hsize).2.2
  have hbalance := h.balance
  unfold Emptied
  cases isSell with
  | true =>
    simp only [if_true] at hbalance ⊢
    omega
  | false =>
    simp only [Bool.false_eq_true, if_false] at hterms hbalance ⊢
    have hfee : quantity * protocolFee module w / preciseUnit ≤ quantity := by
      rw [Nat.div_le_iff_le_mul_add_pred preciseUnit_pos, Nat.mul_comm]
      exact (Nat.mul_le_mul_right _ hterms.2.1.le).trans (Nat.le_add_right _ _)
    constructor
    · intro hzero
      have hall : ¬quantity * protocolFee module w / preciseUnit < quantity := by omega
      rw [Nat.div_lt_iff_lt_mul preciseUnit_pos] at hall
      by_contra hsome
      have hpos : 0 < quantity := by omega
      exact hall (Nat.mul_lt_mul_of_pos_left hterms.2.1 hpos)
    · rintro ⟨rfl, hzero⟩
      rw [Nat.zero_mul, Nat.zero_div] at hbalance
      omega

/-- Where something of the component is left, its unit is on this side of the target. -/
theorem Outcome.onTarget (hquantity : quantity ≤ size)
    (hmultiplier : w.setToken.positionMultiplier ≤ preciseUnitInt)
    (hleft : 0 < v.balance component) : OnTarget w v component isSell size quantity := by
  obtain ⟨_, _, hterms⟩ := calculateAuctionSizeAndDirection_eq hwf hsize
  obtain ⟨newUnit, hunit⟩ := h.unit
  obtain ⟨hsupply, hcovered, hkept⟩ := hunit.covered hleft
  have hsucc := hunit.le_succ hmultiplier
  have hle := hunit.le
  have hpos := hunit.pos
  have hbalance := h.balance
  have hcomputed := hunit.computed
  -- A unit of exactly the target is written as the target or as one less, and not as zero.
  have hexact (hnew : newUnit = normalizedTarget w component) :
      targetUnmet v component = .ok false := by
    rw [h.targetUnmet_iff hwf hsize]
    omega
  cases isSell with
  | true =>
    simp only [if_true] at hterms hbalance
    have hnotional : v.balance component - (w.balance component - currentNotional w component) =
        currentNotional w component - quantity := by
      omega
    rw [hnotional] at hcomputed
    have htarget : normalizedTarget w component ≤ newUnit := by
      refine hunit.target_le hleft hbalance ?_
      show targetNotional w component + quantity ≤ _
      omega
    refine ⟨fun _ => by omega, fun hbuy => absurd hbuy (by decide), fun hwhole hsettled => hexact ?_⟩
    rw [← hcomputed, show currentNotional w component - quantity = targetNotional w component by omega]
    exact unit_eq hwhole
  | false =>
    simp only [Bool.false_eq_true, if_false] at hterms hbalance
    obtain ⟨hdirection, hfee, hsized⟩ := hterms
    have hnet := net_le hfee (hsized ▸ hquantity)
    have hnotional : v.balance component - (w.balance component - currentNotional w component) ≤
        targetNotional w component := by
      omega
    refine ⟨fun hsell => absurd hsell (by decide), fun _ => ?_, fun hwhole hsettled => hexact ?_⟩
    · exact hunit.above_lt hnotional
    · have hgross := le_net hfee (hsettled.trans hsized)
      rw [← hcomputed, show v.balance component -
        (w.balance component - currentNotional w component) = targetNotional w component by omega]
      exact unit_eq hwhole

/-- A unit of zero is on this side of the target where zero is. -/
theorem Outcome.onTarget_iff_zeroAllowed (hempty : v.balance component = 0) :
    OnTarget w v component isSell size quantity ↔
      ZeroAllowed w component isSell size quantity := by
  obtain ⟨newUnit, hunit⟩ := h.unit
  have hzero : currentUnit v component = 0 := hunit.eq_zero hempty
  constructor
  · intro hon
    refine ⟨fun hsell => ?_, fun hwhole hsettled => ?_⟩
    · have hsold := hon.sold hsell
      omega
    · have hmet := (h.targetUnmet_iff hwf hsize).mp (hon.settled hwhole hsettled)
      omega
  · intro hallowed
    refine ⟨fun hsell => ?_, fun _ => ?_, fun hwhole hsettled => ?_⟩
    · have hone := hallowed.sold hsell
      omega
    · rw [hzero, Nat.cast_zero, Int.zero_sub, Int.neg_mul]
      have hworth : 0 ≤ (normalizedTarget w component : Int) * w.setToken.totalSupply :=
        Int.mul_nonneg (Int.natCast_nonneg _) (Int.natCast_nonneg _)
      exact (Int.neg_nonpos_of_nonneg hworth).trans_lt preciseUnitInt_pos
    · have htarget := hallowed.settled hwhole hsettled
      rw [h.targetUnmet_iff hwf hsize]
      omega

end Target

def exampleController : Controller where
  isInitialized := true
  isSet := fun _ => true
  isFactory := fun a => a == 7
  isModule := fun a => a == 50 || a == 60
  fees := fun _ _ => 10 ^ 16
  feeRecipient := 8
  integrationAdapter := fun _ _ => 70

/-- Everything costs as much as the quote asset. -/
def exampleAdapters (_ : Address) : PriceAdapter where
  getPrice := fun _ _ _ _ _ _ => pure (10 ^ 18)
  isPriceAdapterConfigDataValid := fun _ => pure true

def exampleTokens (balance : Nat) : Address → Erc20 :=
  Function.update (fun _ => ⟨fun _ => 10 ^ 30, fun _ _ => 10 ^ 30, 10 ^ 32⟩) 1
    ⟨fun account => if account = 100 then balance else 10 ^ 30, fun _ _ => 10 ^ 30, 10 ^ 32⟩

def exampleCreation (unit : Int) : Result SetToken :=
  SetTokenCreator.create { exampleController with isSet := fun _ => false } 7 100 [1] [unit]
    [50, 60] 9

def exampleCalls : List SetToken.Call :=
  [.initializeModule 50, .initializeModule 60, .changeController exampleController,
    .mint 60 77 (10 ^ 18)]

/-- Anybody may bid for component 1, against the quote asset 2. -/
def exampleAuction (target balance : Nat) : Result AuctionWorld := do
  let s ← exampleCreation 10
  let s ← runs SetToken.call s exampleCalls
  pure ⟨s, exampleTokens balance,
    { timestamp := 1000
      executionInfo := Function.update (fun _ => .empty) 1 ⟨target, "price", []⟩
      permissionInfo := ⟨true, [], fun _ => false⟩
      rebalanceInfo := ⟨2, 1000, 3600, 10 ^ 18, 0, [1]⟩ }⟩

theorem exampleAuction_wellFormed {target balance : Nat}
    (h : exampleAuction target balance = .ok w) : w.setToken.WellFormed := by
  simp only [exampleAuction, bind_eq_ok, pure_eq_ok] at h
  obtain ⟨_, hcreate, s, hrun, rfl⟩ := h
  exact SetToken.reachable_wellFormed hcreate hrun

end AuctionRebalanceModuleV1

end IndexProtocol
