import IndexProtocol.Evm.Result

/-! Contract functions that may be called back.

A call of another contract may come back before it is answered. A function that
makes such calls is a program: what it does up to its next call, and for every
answer what it does then. `σ` is what it reads and writes, `κ` are the calls. -/
namespace IndexProtocol.Evm

inductive Program (σ κ α : Type) where
  | done (a : α)
  | fail (reason : String)
  | read (next : σ → Program σ κ α)
  | write (s : σ) (next : Program σ κ α)
  | call (c : κ) (next : Nat → Program σ κ α)

namespace Program
variable {σ κ α β : Type}

def bind : Program σ κ α → (α → Program σ κ β) → Program σ κ β
  | .done a, f => f a
  | .fail reason, _ => .fail reason
  | .read next, f => .read fun s => (next s).bind f
  | .write s next, f => .write s (next.bind f)
  | .call c next, f => .call c fun answer => (next answer).bind f

instance : Monad (Program σ κ) where
  pure := .done
  bind := bind

/-- What needs no call. -/
def ofResult : Result α → Program σ κ α
  | .ok a => .done a
  | .error reason => .fail reason

def require (p : Prop) [Decidable p] (reason : String) : Program σ κ Unit :=
  ofResult (Evm.require p reason)

/-- A call that changes nothing. -/
def view (f : σ → Result α) : Program σ κ α := .read fun s => ofResult (f s)

def modify (f : σ → σ) : Program σ κ Unit := .read fun s => .write (f s) (.done ())

/-- The answer of a call. -/
def ask (c : κ) : Program σ κ Nat := .call c .done

/-- A call whose answer is not looked at. -/
def tell (c : κ) : Program σ κ Unit := .call c fun _ => .done ()

def whenever (p : Prop) [Decidable p] (program : Program σ κ Unit) : Program σ κ Unit :=
  if p then program else .done ()

/-! ### The calls that a program makes -/

/-- Every call that the program may make satisfies `P`. -/
def Makes (P : κ → Prop) : Program σ κ α → Prop
  | .done _ => True
  | .fail _ => True
  | .read next => ∀ s, (next s).Makes P
  | .write _ next => next.Makes P
  | .call c next => P c ∧ ∀ answer, (next answer).Makes P

variable {P : κ → Prop} {p : Program σ κ α} {f : α → Program σ κ β}

theorem Makes.bind (hp : p.Makes P) (hf : ∀ a, (f a).Makes P) : (p >>= f).Makes P := by
  induction p with
  | done a => exact hf a
  | fail reason => trivial
  | read next ih => exact fun s => ih s (hp s)
  | write s next ih => exact ih hp
  | call c next ih => exact ⟨hp.1, fun answer => ih answer (hp.2 answer)⟩

theorem makes_pure (a : α) : (pure a : Program σ κ α).Makes P := trivial

theorem makes_ofResult (x : Result α) : (ofResult x : Program σ κ α).Makes P := by
  cases x <;> trivial

theorem makes_require {q : Prop} [Decidable q] {reason : String} :
    (require q reason : Program σ κ Unit).Makes P := makes_ofResult _

theorem makes_view (g : σ → Result α) : (view g : Program σ κ α).Makes P :=
  fun s => makes_ofResult (g s)

theorem makes_modify (g : σ → σ) : (modify g : Program σ κ Unit).Makes P := fun _ => trivial

theorem makes_ask {c : κ} (hc : P c) : (ask c : Program σ κ Nat).Makes P :=
  ⟨hc, fun _ => trivial⟩

theorem makes_tell {c : κ} (hc : P c) : (tell c : Program σ κ Unit).Makes P :=
  ⟨hc, fun _ => trivial⟩

theorem Makes.whenever {q : Prop} [Decidable q] {p : Program σ κ Unit} (hp : p.Makes P) :
    (whenever q p).Makes P := by
  unfold Program.whenever
  split
  · exact hp
  · trivial

/-! ### A program whose calls do nothing -/

/-- The result where every call is answered with 0 and changes nothing. -/
def alone : Program σ κ α → σ → Result (α × σ)
  | .done a, s => .ok (a, s)
  | .fail reason, _ => .error reason
  | .read next, s => (next s).alone s
  | .write s next, _ => next.alone s
  | .call _ next, s => (next 0).alone s

end Program

end IndexProtocol.Evm
