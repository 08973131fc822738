import IndexProtocol.Trading.TradeModule

/-! The WrapModule: the manager wraps a component of a SetToken, or unwraps one.

Where the protocol that wraps it takes ether, the SetToken's WETH is turned into ether
first, and all the ether it has into WETH afterwards. `module` is this module's address,
`adapters` are the wrap adapters by address, and `call` is what a call of another contract
by the SetToken does, with the ether it sends. No call re-enters the module. -/
namespace IndexProtocol
open Evm PreciseUnitMath ModuleBase

/-- The state of other contracts, and the ether that the SetToken has. -/
structure WithEther (χ : Type) where
  ether : Nat
  others : χ

/-! ### Wrapped ether

Its `totalSupply` is the ether that the contract has. -/

namespace WETH9

def deposit (t : Erc20) (caller : Address) (value : Nat) : Erc20 :=
  { t with
    balances := Function.update t.balances caller ((t.balances caller + value) % uintBound)
    totalSupply := t.totalSupply + value }

def withdraw (t : Erc20) (caller : Address) (wad : Nat) : Result Erc20 := do
  require (wad ≤ t.balances caller) ""
  -- The contract cannot send ether that it does not have.
  require (wad ≤ t.totalSupply) ""
  pure { t with
    balances := Function.update t.balances caller (t.balances caller - wad)
    totalSupply := t.totalSupply - wad }

theorem withdraw_balanceOf {t t' : Erc20} {caller : Address} {wad : Nat}
    (h : withdraw t caller wad = .ok t') : t'.balanceOf caller + wad = t.balanceOf caller := by
  simp only [withdraw, bind_eq_ok, require_eq_ok, exists_const, pure_eq_ok] at h
  obtain ⟨hle, _, rfl⟩ := h
  simp only [Erc20.balanceOf, Function.update_self]
  exact Nat.sub_add_cancel hle

end WETH9

namespace Invoke
variable {χ : Type} (w : World (WithEther χ)) (module weth : Address)

def invokeUnwrapWETH (quantity : Nat) : Result (World (WithEther χ)) :=
  w.invoke module fun w => do
    let v ← w.callToken weth (WETH9.withdraw · w.setToken.self quantity)
    pure { v with rest := { v.rest with ether := v.rest.ether + quantity } }

def invokeWrapWETH (quantity : Nat) : Result (World (WithEther χ)) :=
  w.invoke module fun w => do
    require (quantity ≤ w.rest.ether) "Address: insufficient balance for call"
    let v ← w.callToken weth fun t => pure (WETH9.deposit t w.setToken.self quantity)
    pure { v with rest := { v.rest with ether := v.rest.ether - quantity } }

end Invoke

namespace WrapModule

structure WrapAdapter where
  ethTokenAddress : Address
  /-- The contract to call, with the value and the data of the call. -/
  getWrapCallData : (underlyingToken wrappedToken : Address) → (underlyingUnits : Nat) →
    Result (Address × Nat × List UInt8)
  getUnwrapCallData : (underlyingToken wrappedToken : Address) → (wrappedTokenUnits : Nat) →
    Result (Address × Nat × List UInt8)
  getSpenderAddress : (underlyingToken wrappedToken : Address) → Result Address

section Module
variable {χ : Type} (adapters : Address → WrapAdapter)
  (call : Address → Nat → List UInt8 → World (WithEther χ) → Result (World (WithEther χ)))
  (module weth : Address) (w : World (WithEther χ))

/-- The module's `initialize`. -/
def initializeSet (sender : Address) : Result (World (WithEther χ)) := do
  validateOnlySetManager w.setToken sender
  require (w.setToken.controller.isSet w.setToken.self = true) "Must be controller-enabled SetToken"
  require (isSetPendingInitialization w.setToken module = true) "Must be pending initialization"
  w.callSetToken (·.initializeModule module)

def validateInputs (transactPosition : Address) (transactPositionUnits : Nat) : Result Unit := do
  require (0 < transactPositionUnits) "Target position units must be > 0"
  let isPosition ← Position.hasDefaultPosition w.setToken transactPosition
  require (isPosition = true) "Target default position must be component"
  let sufficient ←
    Position.hasSufficientDefaultUnits w.setToken transactPosition transactPositionUnits
  require (sufficient = true) "Unit cant be greater than existing"

def createWrapDataAndInvoke (wrapAdapter : WrapAdapter) (underlyingToken wrappedToken : Address)
    (notionalUnderlying : Nat) : Result (World (WithEther χ)) := do
  let (callTarget, callValue, callByteData) ←
    wrapAdapter.getWrapCallData underlyingToken wrappedToken notionalUnderlying
  w.invoke module (call callTarget callValue callByteData)

def createUnwrapDataAndInvoke (wrapAdapter : WrapAdapter) (underlyingToken wrappedToken : Address)
    (notionalUnderlying : Nat) : Result (World (WithEther χ)) := do
  let (callTarget, callValue, callByteData) ←
    wrapAdapter.getUnwrapCallData underlyingToken wrappedToken notionalUnderlying
  w.invoke module (call callTarget callValue callByteData)

/-- The unit of a token, from its balances before and after the action. -/
def updatePosition (token : Address) (preActionTokenBalance postActionTokenBalance : Nat) :
    Result (World (WithEther χ)) :=
  w.callSetToken fun s => do
    let positionUnit ← s.getDefaultPositionRealUnit token
    let positionUnit ← SafeCast.toUint256 positionUnit
    let newUnit ← Position.calculateDefaultEditPositionUnit s.totalSupply preActionTokenBalance
      postActionTokenBalance positionUnit
    Position.editDefaultPosition s module token newUnit

/-- The balances of the underlying token and of the wrapped one. -/
def snapshotTargetAssetsBalance (underlyingToken wrappedToken : Address) : Nat × Nat :=
  (w.balance underlyingToken, w.balance wrappedToken)

/-- What is done before wrapping: the SetToken gets ether, or approves the spender. -/
def prepareWrap (wrapAdapter : WrapAdapter) (underlyingToken wrappedToken : Address)
    (notionalUnderlying : Nat) (usesEther : Bool) : Result (World (WithEther χ)) :=
  if usesEther then Invoke.invokeUnwrapWETH w module weth notionalUnderlying
  else do
    let spender ← wrapAdapter.getSpenderAddress underlyingToken wrappedToken
    Invoke.invokeApprove w module underlyingToken spender notionalUnderlying

/-- Returns the notional amounts of the underlying token and of the wrapped one as well. -/
def validateWrapAndUpdate (integrationName : String) (underlyingToken wrappedToken : Address)
    (underlyingUnits : Nat) (usesEther : Bool) : Result (World (WithEther χ) × Nat × Nat) := do
  validateInputs w underlyingToken underlyingUnits
  let (preActionUnderlyingNotional, preActionWrapNotional) :=
    snapshotTargetAssetsBalance w underlyingToken wrappedToken
  let notionalUnderlying ←
    Position.getDefaultTotalNotional w.setToken.totalSupply underlyingUnits
  let adapter ← getAndValidateAdapter w.setToken module integrationName
  let wrapAdapter := adapters adapter
  let w ← prepareWrap module weth w wrapAdapter underlyingToken wrappedToken notionalUnderlying
    usesEther
  let w ← createWrapDataAndInvoke call module w wrapAdapter
    (if usesEther then wrapAdapter.ethTokenAddress else underlyingToken) wrappedToken
    notionalUnderlying
  let (postActionUnderlyingNotional, postActionWrapNotional) :=
    snapshotTargetAssetsBalance w underlyingToken wrappedToken
  let w ← updatePosition module w underlyingToken preActionUnderlyingNotional
    postActionUnderlyingNotional
  let w ← updatePosition module w wrappedToken preActionWrapNotional postActionWrapNotional
  let underlying ← SafeMath.sub preActionUnderlyingNotional postActionUnderlyingNotional
  let wrapped ← SafeMath.sub postActionWrapNotional preActionWrapNotional
  pure (w, underlying, wrapped)

/-- What is done after unwrapping: all the ether of the SetToken is wrapped. -/
def finishUnwrap (usesEther : Bool) : Result (World (WithEther χ)) :=
  if usesEther then Invoke.invokeWrapWETH w module weth w.rest.ether else pure w

/-- Returns the notional amounts of the underlying token and of the wrapped one as well. -/
def validateUnwrapAndUpdate (integrationName : String) (underlyingToken wrappedToken : Address)
    (wrappedTokenUnits : Nat) (usesEther : Bool) : Result (World (WithEther χ) × Nat × Nat) := do
  validateInputs w wrappedToken wrappedTokenUnits
  let (preActionUnderlyingNotional, preActionWrapNotional) :=
    snapshotTargetAssetsBalance w underlyingToken wrappedToken
  let notionalWrappedToken ←
    Position.getDefaultTotalNotional w.setToken.totalSupply wrappedTokenUnits
  let adapter ← getAndValidateAdapter w.setToken module integrationName
  let wrapAdapter := adapters adapter
  let w ← createUnwrapDataAndInvoke call module w wrapAdapter
    (if usesEther then wrapAdapter.ethTokenAddress else underlyingToken) wrappedToken
    notionalWrappedToken
  let w ← finishUnwrap module weth w usesEther
  let (postActionUnderlyingNotional, postActionWrapNotional) :=
    snapshotTargetAssetsBalance w underlyingToken wrappedToken
  let w ← updatePosition module w underlyingToken preActionUnderlyingNotional
    postActionUnderlyingNotional
  let w ← updatePosition module w wrappedToken preActionWrapNotional postActionWrapNotional
  let underlying ← SafeMath.sub postActionUnderlyingNotional preActionUnderlyingNotional
  let wrapped ← SafeMath.sub preActionWrapNotional postActionWrapNotional
  pure (w, underlying, wrapped)

/-! ### The manager's functions -/

def wrap (sender underlyingToken wrappedToken : Address) (underlyingUnits : Nat)
    (integrationName : String) : Result (World (WithEther χ)) := do
  validateOnlyManagerAndValidSet w.setToken module sender
  let (w, _, _) ← validateWrapAndUpdate adapters call module weth w integrationName underlyingToken
    wrappedToken underlyingUnits false
  pure w

def wrapWithEther (sender wrappedToken : Address) (underlyingUnits : Nat)
    (integrationName : String) : Result (World (WithEther χ)) := do
  validateOnlyManagerAndValidSet w.setToken module sender
  let (w, _, _) ← validateWrapAndUpdate adapters call module weth w integrationName weth
    wrappedToken underlyingUnits true
  pure w

def unwrap (sender underlyingToken wrappedToken : Address) (wrappedUnits : Nat)
    (integrationName : String) : Result (World (WithEther χ)) := do
  validateOnlyManagerAndValidSet w.setToken module sender
  let (w, _, _) ← validateUnwrapAndUpdate adapters call module weth w integrationName
    underlyingToken wrappedToken wrappedUnits false
  pure w

def unwrapWithEther (sender wrappedToken : Address) (wrappedUnits : Nat)
    (integrationName : String) : Result (World (WithEther χ)) := do
  validateOnlyManagerAndValidSet w.setToken module sender
  let (w, _, _) ← validateUnwrapAndUpdate adapters call module weth w integrationName weth
    wrappedToken wrappedUnits true
  pure w

end Module

/-- What the manager may do. -/
inductive Action where
  | wrap (underlyingToken wrappedToken : Address) (underlyingUnits : Nat)
  | wrapWithEther (wrappedToken : Address) (underlyingUnits : Nat)
  | unwrap (underlyingToken wrappedToken : Address) (wrappedUnits : Nat)
  | unwrapWithEther (wrappedToken : Address) (wrappedUnits : Nat)

namespace Action
variable (weth : Address)

def underlying : Action → Address
  | .wrap underlyingToken _ _ => underlyingToken
  | .wrapWithEther _ _ => weth
  | .unwrap underlyingToken _ _ => underlyingToken
  | .unwrapWithEther _ _ => weth

def wrapped : Action → Address
  | .wrap _ wrappedToken _ => wrappedToken
  | .wrapWithEther wrappedToken _ => wrappedToken
  | .unwrap _ wrappedToken _ => wrappedToken
  | .unwrapWithEther wrappedToken _ => wrappedToken

def units : Action → Nat
  | .wrap _ _ underlyingUnits => underlyingUnits
  | .wrapWithEther _ underlyingUnits => underlyingUnits
  | .unwrap _ _ wrappedUnits => wrappedUnits
  | .unwrapWithEther _ wrappedUnits => wrappedUnits

def unwraps : Action → Bool
  | .wrap _ _ _ => false
  | .wrapWithEther _ _ => false
  | .unwrap _ _ _ => true
  | .unwrapWithEther _ _ => true

def usesEther : Action → Bool
  | .wrap _ _ _ => false
  | .wrapWithEther _ _ => true
  | .unwrap _ _ _ => false
  | .unwrapWithEther _ _ => true

/-- The token that is given for the other one. -/
def sent (a : Action) : Address := if a.unwraps then a.wrapped else a.underlying weth

def received (a : Action) : Address := if a.unwraps then a.underlying weth else a.wrapped

theorem sent_received (a : Action) :
    (a.sent weth = a.underlying weth ∧ a.received weth = a.wrapped) ∨
      (a.sent weth = a.wrapped ∧ a.received weth = a.underlying weth) := by
  cases hunwraps : a.unwraps with
  | true => exact .inr ⟨if_pos hunwraps, if_pos hunwraps⟩
  | false => exact .inl ⟨by rw [sent, hunwraps]; rfl, by rw [received, hunwraps]; rfl⟩

/-- The call that the adapter has the SetToken make for an amount. -/
def callData (adapter : WrapAdapter) (a : Action) (amount : Nat) :
    Result (Address × Nat × List UInt8) :=
  let underlyingToken := if a.usesEther then adapter.ethTokenAddress else a.underlying weth
  if a.unwraps then adapter.getUnwrapCallData underlyingToken a.wrapped amount
  else adapter.getWrapCallData underlyingToken a.wrapped amount

/-- What the call may take: wrapping ether sends it, and no token. -/
def callTaken (a : Action) (amount : Nat) : Nat :=
  if a.usesEther && !a.unwraps then 0 else amount

end Action

section Step
variable {χ : Type} (adapters : Address → WrapAdapter)
  (call : Address → Nat → List UInt8 → World (WithEther χ) → Result (World (WithEther χ)))
  (module weth : Address)

def step (integrationName : String) (sender : Address) (w : World (WithEther χ)) :
    Action → Result (World (WithEther χ))
  | .wrap underlyingToken wrappedToken underlyingUnits =>
    wrap adapters call module weth w sender underlyingToken wrappedToken underlyingUnits
      integrationName
  | .wrapWithEther wrappedToken underlyingUnits =>
    wrapWithEther adapters call module weth w sender wrappedToken underlyingUnits integrationName
  | .unwrap underlyingToken wrappedToken wrappedUnits =>
    unwrap adapters call module weth w sender underlyingToken wrappedToken wrappedUnits
      integrationName
  | .unwrapWithEther wrappedToken wrappedUnits =>
    unwrapWithEther adapters call module weth w sender wrappedToken wrappedUnits integrationName

/-- The call that the adapter of the name has the SetToken make takes no more than the amount that
is wrapped or unwrapped, and of no other token. -/
def CallTakes (integrationName : String) (w : World (WithEther χ)) (a : Action) : Prop :=
  ∀ u v amount callTarget callValue callByteData, u.setToken = w.setToken →
    a.callData weth (adapters (w.setToken.controller.integrationAdapter module integrationName))
      amount = .ok (callTarget, callValue, callByteData) →
    call callTarget callValue callByteData u = .ok v → u.Takes v (a.sent weth) (a.callTaken amount)

end Step

section Proofs
variable {χ : Type} {adapters : Address → WrapAdapter}
  {call : Address → Nat → List UInt8 → World (WithEther χ) → Result (World (WithEther χ))}
  {module weth sender : Address} {integrationName : String} {w u v : World (WithEther χ)}

theorem updatePosition_recomputed {token : Address} {before : Nat} (hwf : w.setToken.WellFormed)
    (h : updatePosition module w token before (w.balance token) = .ok v) :
    w.Recomputed v token before := by
  obtain ⟨t, ht, rfl⟩ := World.callSetToken_eq_ok.mp h
  simp only [Position.calculateDefaultEditPositionUnit, bind_eq_ok,
    SetToken.getDefaultPositionRealUnit_eq_ok, SafeCast.toUint256_eq_ok, preciseMul_eq_ok,
    SafeMath.sub_eq_ok, preciseDiv_eq_ok] at ht
  obtain ⟨_, ⟨_, rfl⟩, unit, hunit, newUnit,
    ⟨_, ⟨_, rfl⟩, _, ⟨hle, rfl⟩, _, ⟨hle', rfl⟩, _, hsupply, hnew⟩, hedit⟩ := ht
  have hwritten := World.editDefaultPosition_written hwf (World.callSetToken_eq_ok.mpr ⟨t, hedit, rfl⟩)
  have hnotional : w.notional token = unit * w.setToken.totalSupply / preciseUnit := by
    rw [World.notional, World.unit, hunit, Int.toNat_natCast, Nat.mul_comm]
  rw [← hnotional] at hle hle' hnew
  exact ⟨newUnit, hwritten, hnew, fun _ => ⟨hsupply, hle, hle'⟩, hwritten.le, hwritten.le_step,
    hwritten.pos⟩

/-- Ether for WETH takes the WETH, and an approval nothing. -/
theorem prepareWrap_takes {wrapAdapter : WrapAdapter} {underlyingToken wrappedToken : Address}
    {amount : Nat} {usesEther : Bool} (hweth : usesEther = true → underlyingToken = weth)
    (h : prepareWrap module weth w wrapAdapter underlyingToken wrappedToken amount usesEther =
      .ok v) :
    w.Takes v underlyingToken (if usesEther then amount else 0) := by
  cases usesEther with
  | true =>
    obtain rfl := hweth rfl
    simp only [prepareWrap, if_true, Invoke.invokeUnwrapWETH, World.invoke, bind_eq_ok,
      SetToken.validatePrivileged_eq_ok, exists_const, pure_eq_ok] at h ⊢
    obtain ⟨_, u, hcall, rfl⟩ := h
    obtain ⟨hsame, ht⟩ := World.callToken_sameBut hcall
    refine ⟨hsame.setToken, ?_, fun other hne => (hsame.balance_of_ne hne).ge⟩
    show _ ≤ (u.tokens underlyingToken).balanceOf u.setToken.self + amount
    rw [hsame.setToken]
    exact (WETH9.withdraw_balanceOf ht).ge
  | false =>
    simp only [prepareWrap, Bool.false_eq_true, if_false, bind_eq_ok] at h ⊢
    obtain ⟨_, _, happrove⟩ := h
    exact World.invokeApprove_takes happrove

/-- The WETH of the SetToken changes at most, and with its ether all of it is gone. -/
theorem finishUnwrap_eq {usesEther : Bool} (h : finishUnwrap module weth w usesEther = .ok v) :
    v.setToken = w.setToken ∧ (usesEther = true → v.rest.ether = 0) ∧
      ∀ token, (usesEther = true → token ≠ weth) → v.balance token = w.balance token := by
  cases usesEther with
  | true =>
    simp only [finishUnwrap, if_true, Invoke.invokeWrapWETH, World.invoke, bind_eq_ok,
      SetToken.validatePrivileged_eq_ok, require_eq_ok, exists_const, pure_eq_ok] at h
    obtain ⟨_, _, u, hcall, rfl⟩ := h
    obtain ⟨hsame, _⟩ := World.callToken_sameBut hcall
    refine ⟨hsame.setToken, fun _ => ?_, fun token hne => hsame.balance_of_ne (hne rfl)⟩
    show u.rest.ether - w.rest.ether = 0
    rw [hsame.rest, Nat.sub_self]
  | false =>
    simp only [finishUnwrap, Bool.false_eq_true, if_false, pure_eq_ok] at h
    subst h
    exact ⟨rfl, fun habsurd => absurd habsurd Bool.false_ne_true, fun _ _ => rfl⟩

theorem validateInputs_le {token : Address} {units : Nat}
    (h : validateInputs w token units = .ok ()) : units ≤ w.unit token := by
  simp only [validateInputs, bind_eq_ok, require_eq_ok, exists_const] at h
  obtain ⟨_, _, _, _, _, hsufficient, rfl⟩ := h
  exact TradeModule.hasSufficientDefaultUnits_le hsufficient

/-- What an action does: `u` is what the calls of other contracts left, `t` what the first edit
left. -/
structure Acted (weth : Address) (w v : World (WithEther χ)) (a : Action)
    (u t : World (WithEther χ)) : Prop where
  sufficient : a.units ≤ w.unit (a.sent weth)
  taken : a.sent weth ≠ a.received weth → w.balance (a.sent weth) ≤
    u.balance (a.sent weth) + w.setToken.totalSupply * a.units / preciseUnit
  rebalanced : w.Rebalanced v (a.underlying weth) a.wrapped u t
  sent_le : u.balance (a.sent weth) ≤ w.balance (a.sent weth)
  le_received : w.balance (a.received weth) ≤ u.balance (a.received weth)
  ether : a.unwraps = true → a.usesEther = true → u.rest.ether = 0

/-- Both edits write the units for the balances that the calls left. -/
theorem edits_recomputed {one two : Address} {before before' : Nat} {t : World (WithEther χ)}
    (hwf : w.setToken.WellFormed)
    (hfirst : updatePosition module w one before (w.balance one) = .ok t)
    (hsecond : updatePosition module t two before' (w.balance two) = .ok v) :
    w.Recomputed t one before ∧ t.Recomputed v two before' := by
  have hone := updatePosition_recomputed hwf hfirst
  rw [← hone.balance two] at hsecond
  exact ⟨hone, updatePosition_recomputed hone.wellFormed hsecond⟩

theorem validateWrapAndUpdate_acted {a : Action} {amounts : Nat × Nat}
    (hwf : w.setToken.WellFormed) (hunwraps : a.unwraps = false)
    (hweth : a.usesEther = true → a.underlying weth = weth)
    (htakes : CallTakes adapters call module weth integrationName w a)
    (h : validateWrapAndUpdate adapters call module weth w integrationName (a.underlying weth)
      a.wrapped a.units a.usesEther = .ok (v, amounts)) :
    ∃ u t, Acted weth w v a u t := by
  have hsent : a.sent weth = a.underlying weth := by rw [Action.sent, hunwraps]; rfl
  have hreceived : a.received weth = a.wrapped := by rw [Action.received, hunwraps]; rfl
  simp only [validateWrapAndUpdate, snapshotTargetAssetsBalance, getAndValidateAdapter,
    createWrapDataAndInvoke, World.invoke, Position.getDefaultTotalNotional, bind_eq_ok,
    require_eq_ok, exists_const, pure_eq_ok, preciseMul_eq_ok, SafeMath.sub_eq_ok,
    SetToken.validatePrivileged_eq_ok, Prod.mk.injEq] at h
  obtain ⟨_, hinputs, _, ⟨_, rfl⟩, _, ⟨_, rfl⟩, x, hprepare, u, ⟨⟨target, value, data⟩, hdata, _, hcall⟩,
    t, hfirst, v', hsecond, _, ⟨hle, _⟩, _, ⟨hle', _⟩, rfl, _⟩ := h
  have hprepared := prepareWrap_takes hweth hprepare
  have hdata' : a.callData weth
      (adapters (w.setToken.controller.integrationAdapter module integrationName))
      (w.setToken.totalSupply * a.units / preciseUnit) = .ok (target, value, data) := by
    rw [Action.callData, hunwraps]
    exact hdata
  have hcalled := htakes x u _ target value data hprepared.setToken hdata' hcall
  rw [hsent] at hcalled
  have htaken := hprepared.trans hcalled
  obtain ⟨hone, htwo⟩ := edits_recomputed (htaken.setToken ▸ hwf) hfirst hsecond
  refine ⟨u, t, hsent ▸ validateInputs_le hinputs, fun _ => ?_, ⟨htaken.setToken,
    fun token hne _ => htaken.others token hne, hone, htwo⟩, hsent ▸ hle, hreceived ▸ hle',
    fun habsurd => by rw [hunwraps] at habsurd; cases habsurd⟩
  have hsum : (if a.usesEther = true then w.setToken.totalSupply * a.units / preciseUnit else 0) +
      a.callTaken (w.setToken.totalSupply * a.units / preciseUnit) =
        w.setToken.totalSupply * a.units / preciseUnit := by
    cases hether : a.usesEther <;> simp [Action.callTaken, hether, hunwraps]
  rw [hsent, ← hsum]
  exact htaken.taken

theorem validateUnwrapAndUpdate_acted {a : Action} {amounts : Nat × Nat}
    (hwf : w.setToken.WellFormed) (hunwraps : a.unwraps = true)
    (hweth : a.usesEther = true → a.underlying weth = weth)
    (htakes : CallTakes adapters call module weth integrationName w a)
    (h : validateUnwrapAndUpdate adapters call module weth w integrationName (a.underlying weth)
      a.wrapped a.units a.usesEther = .ok (v, amounts)) :
    ∃ u t, Acted weth w v a u t := by
  have hsent : a.sent weth = a.wrapped := by rw [Action.sent, hunwraps]; rfl
  have hreceived : a.received weth = a.underlying weth := by rw [Action.received, hunwraps]; rfl
  simp only [validateUnwrapAndUpdate, snapshotTargetAssetsBalance, getAndValidateAdapter,
    createUnwrapDataAndInvoke, World.invoke, Position.getDefaultTotalNotional, bind_eq_ok,
    require_eq_ok, exists_const, pure_eq_ok, preciseMul_eq_ok, SafeMath.sub_eq_ok,
    SetToken.validatePrivileged_eq_ok, Prod.mk.injEq] at h
  obtain ⟨_, hinputs, _, ⟨_, rfl⟩, _, ⟨_, rfl⟩, x, ⟨⟨target, value, data⟩, hdata, _, hcall⟩, u, hfinish,
    t, hfirst, v', hsecond, _, ⟨hle, _⟩, _, ⟨hle', _⟩, rfl, _⟩ := h
  have hdata' : a.callData weth
      (adapters (w.setToken.controller.integrationAdapter module integrationName))
      (w.setToken.totalSupply * a.units / preciseUnit) = .ok (target, value, data) := by
    rw [Action.callData, hunwraps]
    exact hdata
  have hcalled := htakes w x _ target value data rfl hdata' hcall
  rw [hsent, Action.callTaken, hunwraps, Bool.not_true, Bool.and_false, if_neg Bool.false_ne_true]
    at hcalled
  obtain ⟨hset, hether, hkept⟩ := finishUnwrap_eq hfinish
  have hset' : u.setToken = w.setToken := hset.trans hcalled.setToken
  have hother (token : Address) (hne : token ≠ a.underlying weth) :
      u.balance token = x.balance token :=
    hkept token fun huses => hweth huses ▸ hne
  obtain ⟨hone, htwo⟩ := edits_recomputed (hset' ▸ hwf) hfirst hsecond
  refine ⟨u, t, hsent ▸ validateInputs_le hinputs, fun hne => ?_, ⟨hset',
    fun token hne hne' => ?_, hone, htwo⟩, hsent ▸ hle', hreceived ▸ hle, fun _ => hether⟩
  · rw [hsent, hreceived] at hne
    rw [hsent, hother _ hne]
    exact hcalled.taken
  · rw [hother token hne]
    exact hcalled.others token hne'

/-- Every action of the manager exchanges two tokens and writes their units. -/
theorem step_acted {a : Action} (hwf : w.setToken.WellFormed)
    (htakes : CallTakes adapters call module weth integrationName w a)
    (h : step adapters call module weth integrationName sender w a = .ok v) :
    ∃ u t, Acted weth w v a u t := by
  cases a with
  | wrap underlyingToken wrappedToken underlyingUnits =>
    simp only [step, wrap, bind_eq_ok, pure_eq_ok] at h
    obtain ⟨_, _, ⟨_, amounts⟩, hwrap, rfl⟩ := h
    exact validateWrapAndUpdate_acted hwf rfl (fun h => by cases h) htakes hwrap
  | wrapWithEther wrappedToken underlyingUnits =>
    simp only [step, wrapWithEther, bind_eq_ok, pure_eq_ok] at h
    obtain ⟨_, _, ⟨_, amounts⟩, hwrap, rfl⟩ := h
    exact validateWrapAndUpdate_acted hwf rfl (fun _ => rfl) htakes hwrap
  | unwrap underlyingToken wrappedToken wrappedUnits =>
    simp only [step, unwrap, bind_eq_ok, pure_eq_ok] at h
    obtain ⟨_, _, ⟨_, amounts⟩, hunwrap, rfl⟩ := h
    exact validateUnwrapAndUpdate_acted hwf rfl (fun h => by cases h) htakes hunwrap
  | unwrapWithEther wrappedToken wrappedUnits =>
    simp only [step, unwrapWithEther, bind_eq_ok, pure_eq_ok] at h
    obtain ⟨_, _, ⟨_, amounts⟩, hunwrap, rfl⟩ := h
    exact validateUnwrapAndUpdate_acted hwf rfl (fun _ => rfl) htakes hunwrap

/-- What wrapping or unwrapping comes to: no more was given than the manager said, and the shares
got all that came of it. -/
structure Settled (weth : Address) (w v : World (WithEther χ)) (a : Action) (sold bought : Nat) :
    Prop where
  sufficient : a.units ≤ w.unit (a.sent weth)
  sold_le : sold ≤ w.setToken.totalSupply * a.units / preciseUnit
  converted : w.Converted v (a.sent weth) (a.received weth) sold bought
  /-- Ether that comes of unwrapping does not stay. -/
  ether : a.unwraps = true → a.usesEther = true → v.rest.ether = 0

/-- **What wrapping gives and gets.** Of every SetToken in every state that calls after its creation
lead to, if the call that the adapter makes takes no more than the amount that it is told, and of no
other token, wrapping or unwrapping a token that is backed, with ether or without, gives no more than
the units that the manager says and writes the units of both tokens for what is left, without what
the SetToken had untracked of either: for each share to within one more than the multiplier in whole
ones, which is two while the multiplier is at most one. -/
theorem step_settles {controller : Controller} {factory self manager : Address}
    {components modules : List Address} {units : List Int} {calls : List SetToken.Call}
    {s : SetToken} {a : Action}
    (hcreate : SetTokenCreator.create controller factory self components units modules manager =
      .ok s)
    (hrun : runs SetToken.call s calls = .ok w.setToken)
    (htakes : CallTakes adapters call module weth integrationName w a)
    (hne : a.underlying weth ≠ a.wrapped) (hunderlying : w.Backed (a.underlying weth))
    (hwrapped : w.Backed a.wrapped)
    (h : step adapters call module weth integrationName sender w a = .ok v) :
    ∃ sold bought, Settled weth w v a sold bought := by
  obtain ⟨u, t, hacted⟩ := step_acted (SetToken.reachable_wellFormed hcreate hrun) htakes h
  have hboth := hacted.rebalanced.both hne
  have hothers := hacted.rebalanced.others
  -- Which of the two tokens is given is a matter of the action.
  have hpair : u.BothRecomputed v (a.sent weth) (a.received weth) w.balance ∧
      a.sent weth ≠ a.received weth ∧ w.Backed (a.sent weth) ∧ w.Backed (a.received weth) ∧
      ∀ token, token ≠ a.sent weth → token ≠ a.received weth →
        w.balance token ≤ u.balance token := by
    cases a.sent_received weth with
    | inl hwraps =>
      rw [hwraps.1, hwraps.2]
      exact ⟨hboth, hne, hunderlying, hwrapped, hothers⟩
    | inr hunwraps =>
      rw [hunwraps.1, hunwraps.2]
      exact ⟨hboth.symm, hne.symm, hwrapped, hunderlying,
        fun token hother hother' => hothers token hother' hother⟩
  obtain ⟨hedited, hdistinct, hsent, hreceived, hkept⟩ := hpair
  have hsent_le := hacted.sent_le
  have hle_received := hacted.le_received
  have htaken := hacted.taken hdistinct
  refine ⟨w.balance (a.sent weth) - u.balance (a.sent weth),
    u.balance (a.received weth) - w.balance (a.received weth), hacted.sufficient, by omega,
    World.converted hsent hreceived hacted.rebalanced.setToken (by omega) (by omega) hkept hedited,
    fun hunwraps huses => ?_⟩
  rw [hacted.rebalanced.rest]
  exact hacted.ether hunwraps huses

/-! One share of ten units of token 1, of which four are unwrapped into two ether each. -/

section Example
open AuctionRebalanceModuleV1 (exampleCreation exampleCalls exampleTokens)

/-- An adapter for the protocol at 72, where token 1 is wrapped ether. -/
def exampleAdapters (_ : Address) : WrapAdapter where
  ethTokenAddress := 73
  getWrapCallData := fun _ _ _ => revert "Unsupported"
  getUnwrapCallData := fun underlyingToken wrappedToken wrappedTokenUnits => do
    require (underlyingToken = 73 ∧ wrappedToken = 1) "Must be a valid token pair"
    require (wrappedTokenUnits < 256) "Unsupported"
    pure (72, 0, [UInt8.ofNat wrappedTokenUnits])
  getSpenderAddress := fun _ _ => pure 72

/-- Takes what it is told to of token 1, and sends two ether for each. -/
def exampleCall (_ : Address) (_ : Nat) (callByteData : List UInt8) (w : World (WithEther χ)) :
    Result (World (WithEther χ)) := do
  let amount := (callByteData.headD 0).toNat
  let w ← w.callToken 1 (·.transfer w.setToken.self 72 amount)
  pure { w with rest := { w.rest with ether := w.rest.ether + 2 * amount } }

theorem exampleCall_takes (hself : w.setToken.self ≠ 72) (wrappedUnits : Nat) :
    CallTakes exampleAdapters exampleCall module weth integrationName w
      (.unwrapWithEther 1 wrappedUnits) := by
  intro u v amount callTarget callValue callByteData hset hcalldata hcall
  simp only [Action.callData, Action.unwraps, Action.wrapped, exampleAdapters, if_true, bind_eq_ok,
    require_eq_ok, exists_const, pure_eq_ok, Prod.mk.injEq] at hcalldata
  obtain ⟨_, hsmall, rfl, rfl, rfl⟩ := hcalldata
  simp only [exampleCall, List.headD_cons, bind_eq_ok, pure_eq_ok] at hcall
  obtain ⟨x, htransfer, rfl⟩ := hcall
  obtain ⟨hsame, ht⟩ := World.callToken_sameBut htransfer
  have hmoved := (Erc20.transferInternal_moved ht).1.at_sender (hset ▸ hself)
  rw [UInt8.toNat_ofNat', Nat.mod_eq_of_lt hsmall] at hmoved
  have htaken : u.Takes x 1 amount := by
    refine hsame.takes ?_
    rw [World.balance, World.balance, hsame.setToken]
    exact hmoved.ge
  exact ⟨htaken.setToken, htaken.taken, htaken.others⟩

/-- The SetToken has an ether that nobody knew of; it is wrapped with the others. -/
def exampleWorld : Result (World (WithEther Unit)) := do
  let created ← exampleCreation 10
  let s ← runs SetToken.call created exampleCalls
  pure ⟨s, exampleTokens 10, ⟨1, ()⟩⟩

theorem step_settles_example : ∃ w v, exampleWorld = .ok w ∧
    step exampleAdapters exampleCall 50 2 "protocol" 9 w (.unwrapWithEther 1 4) = .ok v ∧
    v.unit 1 = 6 ∧ v.unit 2 = 9 ∧
    ∃ sold bought, Settled 2 w v (.unwrapWithEther 1 4) sold bought := by
  have h : (do
      let w ← exampleWorld
      let v ← step exampleAdapters exampleCall 50 2 "protocol" 9 w (.unwrapWithEther 1 4)
      require (w.setToken.self ≠ 72 ∧ w.Backed 1 ∧ w.Backed 2 ∧ v.unit 1 = 6 ∧ v.unit 2 = 9)
        "") = .ok () := by
    decide +kernel
  simp only [bind_eq_ok, require_eq_ok] at h
  obtain ⟨w, hw, v, hv, hself, hwrapped, hunderlying, hunit, hunit'⟩ := h
  have hdeployed := hw
  simp only [exampleWorld, bind_eq_ok, pure_eq_ok] at hdeployed
  obtain ⟨created, hcreate, s, hrun, rfl⟩ := hdeployed
  exact ⟨_, v, hw, hv, hunit, hunit', step_settles hcreate hrun (exampleCall_takes hself 4)
    (by decide) hunderlying hwrapped hv⟩

end Example

end Proofs

end WrapModule

end IndexProtocol
