import IndexProtocol.SetToken.Representation

/-! A SetToken among other contracts.

The modules of a SetToken act on the SetToken, on the tokens it holds and on
state of other contracts, of type `χ`. The shares of the SetToken are kept in
the SetToken itself; `tokens` are the other tokens. `balance` is what the
SetToken holds of one. -/
namespace IndexProtocol
open Evm PreciseUnitMath

structure World (χ : Type) where
  setToken : SetToken
  tokens : Address → Erc20
  rest : χ

namespace World
variable {χ : Type} (w : World χ)

/-- What the SetToken holds of a token. -/
def balance (token : Address) : Nat := (w.tokens token).balanceOf w.setToken.self

/-- A call that changes one token. -/
def callToken (token : Address) (call : Erc20 → Result Erc20) : Result (World χ) := do
  let t ← call (w.tokens token)
  pure { w with tokens := Function.update w.tokens token t }

/-- A call that changes the SetToken. -/
def callSetToken (call : SetToken → Result SetToken) : Result (World χ) := do
  let s ← call w.setToken
  pure { w with setToken := s }

/-- A module has the SetToken call another contract. -/
def invoke (module : Address) (call : World χ → Result (World χ)) : Result (World χ) := do
  w.setToken.validatePrivileged module
  call w

/-- The world `v` differs from `w` in the token's ledger alone. -/
structure SameBut (w v : World χ) (token : Address) : Prop where
  setToken : v.setToken = w.setToken
  rest : v.rest = w.rest
  tokens : ∀ other, other ≠ token → v.tokens other = w.tokens other

namespace SameBut
variable {w} {u v : World χ} {token : Address}

theorem refl (w : World χ) (token : Address) : w.SameBut w token := ⟨rfl, rfl, fun _ _ => rfl⟩

theorem trans (h : w.SameBut v token) (h' : v.SameBut u token) : w.SameBut u token :=
  ⟨h'.setToken.trans h.setToken, h'.rest.trans h.rest,
    fun other hne => (h'.tokens other hne).trans (h.tokens other hne)⟩

theorem balance_of_ne (h : w.SameBut v token) {other : Address} (hne : other ≠ token) :
    v.balance other = w.balance other := by
  rw [balance, balance, h.setToken, h.tokens other hne]

end SameBut

end World

/-! ### Transfers that check the amount -/

namespace ExplicitERC20
variable {χ : Type}

/-- Transfers in the name of `caller`, from an account that has set it an allowance. -/
def transferFrom (w : World χ) (caller token sender recipient : Address) (quantity : Nat) :
    Result (World χ) := do
  if 0 < quantity then
    let existingBalance := (w.tokens token).balanceOf recipient
    let w ← w.callToken token (·.transferFrom caller sender recipient quantity)
    let newBalance := (w.tokens token).balanceOf recipient
    let expected ← SafeMath.add existingBalance quantity
    require (newBalance = expected) "Invalid post transfer balance"
    pure w
  else pure w

end ExplicitERC20

namespace Invoke
variable {χ : Type} (w : World χ) (module : Address)

def invokeApprove (token spender : Address) (quantity : Nat) : Result (World χ) :=
  w.invoke module fun w => w.callToken token (·.approve w.setToken.self spender quantity)

def invokeTransfer (token recipient : Address) (quantity : Nat) : Result (World χ) :=
  if 0 < quantity then
    w.invoke module fun w => w.callToken token (·.transfer w.setToken.self recipient quantity)
  else pure w

def strictInvokeTransfer (token recipient : Address) (quantity : Nat) : Result (World χ) := do
  if 0 < quantity then
    let existingBalance := w.balance token
    let w ← invokeTransfer w module token recipient quantity
    let newBalance := w.balance token
    let expected ← SafeMath.sub existingBalance quantity
    require (newBalance = expected) "Invalid post transfer balance"
    pure w
  else pure w

end Invoke

namespace World
variable {χ : Type} {w v : World χ} {token : Address}

theorem callToken_eq_ok {call : Erc20 → Result Erc20} :
    w.callToken token call = .ok v ↔
      ∃ t, call (w.tokens token) = .ok t ∧
        { w with tokens := Function.update w.tokens token t } = v := by
  simp [callToken]

theorem callToken_sameBut {call : Erc20 → Result Erc20} (h : w.callToken token call = .ok v) :
    w.SameBut v token ∧ call (w.tokens token) = .ok (v.tokens token) := by
  obtain ⟨t, ht, rfl⟩ := callToken_eq_ok.mp h
  refine ⟨⟨rfl, rfl, fun other hne => Function.update_of_ne hne _ _⟩, ht.trans ?_⟩
  simp

theorem callSetToken_eq_ok {call : SetToken → Result SetToken} :
    w.callSetToken call = .ok v ↔
      ∃ s, call w.setToken = .ok s ∧ { w with setToken := s } = v := by
  simp [callSetToken]

/-- What `transferFrom` does to the balances of its token. -/
theorem transferFrom_moved {caller sender recipient : Address} {quantity : Nat}
    (h : ExplicitERC20.transferFrom w caller token sender recipient quantity = .ok v) :
    w.SameBut v token ∧
      (w.tokens token).Moved (v.tokens token) sender recipient quantity ∧
      (v.tokens token).balanceOf recipient = (w.tokens token).balanceOf recipient + quantity := by
  unfold ExplicitERC20.transferFrom at h
  split_ifs at h with hquantity
  · simp only [bind_eq_ok, SafeMath.add_eq_ok, require_eq_ok, exists_const, pure_eq_ok] at h
    obtain ⟨_, hcall, _, ⟨_, rfl⟩, hbalance, rfl⟩ := h
    obtain ⟨hsame, ht⟩ := callToken_sameBut hcall
    exact ⟨hsame, (Erc20.transferFrom_moved ht).1, hbalance⟩
  · obtain rfl : w = v := by simpa using h
    obtain rfl : quantity = 0 := by omega
    exact ⟨.refl w token, .zero _ _ _, rfl⟩

/-- Tokens transferred to the SetToken. -/
theorem transferFrom_balance {caller sender : Address} {quantity : Nat}
    (h : ExplicitERC20.transferFrom w caller token sender w.setToken.self quantity = .ok v) :
    w.SameBut v token ∧ v.balance token = w.balance token + quantity := by
  obtain ⟨hsame, _, hbalance⟩ := transferFrom_moved h
  refine ⟨hsame, ?_⟩
  rwa [balance, balance, hsame.setToken]

/-- Tokens transferred out of the SetToken. -/
theorem strictInvokeTransfer_balance {module recipient : Address} {quantity : Nat}
    (h : Invoke.strictInvokeTransfer w module token recipient quantity = .ok v) :
    w.SameBut v token ∧
      (w.tokens token).Moved (v.tokens token) w.setToken.self recipient quantity ∧
      v.balance token + quantity = w.balance token := by
  unfold Invoke.strictInvokeTransfer Invoke.invokeTransfer at h
  split_ifs at h with hquantity
  · simp only [bind_eq_ok, SafeMath.sub_eq_ok, require_eq_ok, exists_const, pure_eq_ok, invoke,
      SetToken.validatePrivileged_eq_ok] at h
    obtain ⟨_, ⟨_, hcall⟩, _, ⟨hle, rfl⟩, hbalance, rfl⟩ := h
    obtain ⟨hsame, ht⟩ := callToken_sameBut hcall
    exact ⟨hsame, (Erc20.transferInternal_moved ht).1, by omega⟩
  · obtain rfl : w = v := by simpa using h
    obtain rfl : quantity = 0 := by omega
    exact ⟨.refl w token, .zero _ _ _, rfl⟩

/-- An approval moves nothing. -/
theorem invokeApprove_balance {module spender : Address} {quantity : Nat}
    (h : Invoke.invokeApprove w module token spender quantity = .ok v) :
    w.SameBut v token ∧ (v.tokens token).balances = (w.tokens token).balances := by
  simp only [Invoke.invokeApprove, invoke, bind_eq_ok, SetToken.validatePrivileged_eq_ok,
    exists_const] at h
  obtain ⟨hsame, ht⟩ := callToken_sameBut h.2
  exact ⟨hsame, (Erc20.approveInternal_balances ht).1⟩

end World

end IndexProtocol
