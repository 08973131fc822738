import Mathlib.Data.List.Forall2

/-! Calls that return or revert, and runs of them.

A contract function is a function into `Result`: it returns a value or reverts
with a reason, and a revert leaves no state behind. A sequence of successful
calls is a fold in `Result` (`runs`), so the same rule, `runs_induction`, serves
a loop over an array and a run of transactions: what holds at the start and is
preserved by every call that returns holds at the end. `Along` asks a condition
of every call of a run, in the state in which it is made. -/
namespace IndexProtocol.Evm

/-- A call returns a value or reverts with a reason. -/
abbrev Result (α : Type) := Except String α

def revert {α : Type} (reason : String) : Result α := .error reason

def require (p : Prop) [Decidable p] (reason : String) : Result Unit :=
  if p then .ok () else .error reason

section Inversion
variable {α β : Type}

@[simp] theorem bind_eq_ok {x : Result α} {f : α → Result β} {b : β} :
    (x >>= f) = .ok b ↔ ∃ a, x = .ok a ∧ f a = .ok b := by
  cases x <;> simp [bind, Except.bind]

theorem ok_bind (a : α) (f : α → Result β) : (Except.ok a >>= f) = f a := rfl

@[simp] theorem pure_eq_ok {a b : α} : (pure a : Result α) = .ok b ↔ a = b := by
  simp [pure, Except.pure]

@[simp] theorem revert_eq_ok {reason : String} {a : α} : (revert reason : Result α) = .ok a ↔ False := by
  simp [revert]

@[simp] theorem require_eq_ok {p : Prop} [Decidable p] {reason : String} {u : Unit} :
    require p reason = .ok u ↔ p := by
  unfold require
  split <;> simp_all

@[simp] theorem map_eq_ok {x : Result α} {f : α → β} {b : β} :
    (f <$> x) = .ok b ↔ ∃ a, x = .ok a ∧ f a = b := by
  cases x <;> simp [Functor.map, Except.map]

/-- A composed call reverts where its first part does, or its second after the first. -/
theorem bind_eq_error {x : Result α} {f : α → Result β} {reason : String} :
    (x >>= f) = .error reason ↔ x = .error reason ∨ ∃ a, x = .ok a ∧ f a = .error reason := by
  cases x <;> simp [bind, Except.bind]

theorem pure_ne_error {a : α} {reason : String} : (pure a : Result α) ≠ .error reason := nofun

theorem require_eq_error {p : Prop} [Decidable p] {reason reason' : String} :
    require p reason = .error reason' ↔ ¬p ∧ reason = reason' := by
  unfold require
  split <;> simp_all

end Inversion

/-! ### Runs of calls -/

section Runs
variable {σ α : Type} (step : σ → α → Result σ)

/-- The calls `as` made in order, all of them successful. -/
def runs (s : σ) (as : List α) : Result σ := as.foldlM step s

@[simp] theorem runs_nil (s : σ) : runs step s [] = .ok s := rfl

theorem runs_cons (s : σ) (a : α) (rest : List α) :
    runs step s (a :: rest) = step s a >>= fun t => runs step t rest := rfl

theorem runs_cons_eq_ok {s u : σ} {a : α} {rest : List α} :
    runs step s (a :: rest) = .ok u ↔ ∃ t, step s a = .ok t ∧ runs step t rest = .ok u := by
  rw [runs_cons, bind_eq_ok]

theorem runs_congr {step' : σ → α → Result σ} {s : σ} {as : List α}
    (h : ∀ s, ∀ a ∈ as, step s a = step' s a) : runs step s as = runs step' s as := by
  induction as generalizing s with
  | nil => rfl
  | cons a rest ih =>
    rw [runs_cons, runs_cons, h s a List.mem_cons_self]
    congr 1
    funext t
    exact ih fun s b hb => h s b (List.mem_cons_of_mem a hb)

/-- A condition on every call of a run, in the state in which the call is made. -/
def Along (C : σ → α → Prop) : σ → List α → Prop
  | _, [] => True
  | s, a :: rest => C s a ∧ ∀ t, step s a = .ok t → Along C t rest

variable {step}

/-- The condition is decided by making the calls. -/
instance decidableAlong (C : σ → α → Prop) [∀ s a, Decidable (C s a)] (s : σ) :
    (as : List α) → Decidable (Along step C s as)
  | [] => isTrue trivial
  | a :: rest =>
    match h : step s a with
    | .ok t =>
      have := decidableAlong C t rest
      decidable_of_iff (C s a ∧ Along step C t rest) <| and_congr_right fun _ =>
        ⟨fun hrest u hu => Except.ok.inj (h.symm.trans hu) ▸ hrest, fun hall => hall t h⟩
    | .error _ =>
      decidable_of_iff (C s a) <| Iff.symm <| and_iff_left fun u hu => by rw [h] at hu; cases hu

/-- **The rule of runs.** A property of the state and of the calls still to be
made, preserved by every successful call that meets the condition, holds at the end. -/
theorem runs_induction_along {C : σ → α → Prop} (P : σ → List α → Prop)
    (hstep : ∀ s a rest t, P s (a :: rest) → C s a → step s a = .ok t → P t rest)
    {s u : σ} {as : List α} (h : P s as) (hC : Along step C s as) (hr : runs step s as = .ok u) :
    P u [] := by
  induction as generalizing s with
  | nil =>
    obtain rfl : s = u := by simpa using hr
    exact h
  | cons a rest ih =>
    obtain ⟨t, ht, hr⟩ := (runs_cons_eq_ok step).mp hr
    exact ih (hstep s a rest t h hC.1 ht) (hC.2 t ht) hr

/-- A condition that the calls meet in every state. -/
theorem along_of_forall {C : σ → α → Prop} {as : List α} (hC : ∀ a ∈ as, ∀ s, C s a) (s : σ) :
    Along step C s as := by
  induction as generalizing s with
  | nil => trivial
  | cons a rest ih =>
    rw [List.forall_mem_cons] at hC
    exact ⟨hC.1 s, fun t _ => ih hC.2 t⟩

theorem along_imp {C D : σ → α → Prop} {s : σ} {as : List α} (h : ∀ a ∈ as, ∀ s, D s a → C s a)
    (hD : Along step D s as) : Along step C s as := by
  induction as generalizing s with
  | nil => trivial
  | cons a rest ih =>
    rw [List.forall_mem_cons] at h
    exact ⟨h.1 s hD.1, fun t ht => ih h.2 (hD.2 t ht)⟩

/-- A run continued. -/
theorem along_append {C : σ → α → Prop} {s : σ} {as bs : List α} (h : Along step C s as)
    (h' : ∀ t, runs step s as = .ok t → Along step C t bs) : Along step C s (as ++ bs) := by
  induction as generalizing s with
  | nil => exact h' s rfl
  | cons a rest ih =>
    refine ⟨h.1, fun t ht => ih (h.2 t ht) fun u hu => ?_⟩
    exact h' u ((runs_cons_eq_ok step).mpr ⟨t, ht, hu⟩)

theorem runs_append {s t u : σ} {as bs : List α} (h : runs step s as = .ok t)
    (h' : runs step t bs = .ok u) : runs step s (as ++ bs) = .ok u := by
  induction as generalizing s with
  | nil =>
    obtain rfl : s = t := by simpa using h
    exact h'
  | cons a rest ih =>
    obtain ⟨r, hr, hrest⟩ := (runs_cons_eq_ok step).mp h
    exact (runs_cons_eq_ok step).mpr ⟨r, hr, ih hrest⟩

/-- The rule without a condition on the calls. -/
theorem runs_induction (P : σ → List α → Prop)
    (hstep : ∀ s a rest t, P s (a :: rest) → step s a = .ok t → P t rest)
    {s u : σ} {as : List α} (h : P s as) (hr : runs step s as = .ok u) : P u [] :=
  runs_induction_along P (fun s a rest t hP _ ht => hstep s a rest t hP ht) h
    (along_of_forall (C := fun _ _ => True) (fun _ _ _ => trivial) s) hr

/-- An invariant of the state alone. -/
theorem runs_invariant (I : σ → Prop) (hstep : ∀ s a t, I s → step s a = .ok t → I t)
    {s u : σ} {as : List α} (h : I s) (hr : runs step s as = .ok u) : I u :=
  runs_induction (fun s _ => I s) (fun s a _ t => hstep s a t) h hr

/-- Conditions that agree on successful calls agree on a successful run. -/
theorem along_iff {C D : σ → α → Prop} (hstep : ∀ s a t, step s a = .ok t → (D s a ↔ C s a))
    {s u : σ} {as : List α} (hr : runs step s as = .ok u) :
    Along step D s as ↔ Along step C s as := by
  induction as generalizing s with
  | nil => exact Iff.rfl
  | cons a rest ih =>
    obtain ⟨t, ht, hr⟩ := (runs_cons_eq_ok step).mp hr
    refine and_congr (hstep s a t ht) (forall_congr' fun t' => forall_congr' fun ht' => ?_)
    obtain rfl : t = t' := Except.ok.inj (ht.symm.trans ht')
    exact ih hr

/-- What holds of each two successful calls in a row holds of neighbours in a run. -/
theorem runs_isChain {C : σ → α → Prop} {R : α → α → Prop}
    (hpair : ∀ {s t u : σ} {a b : α}, C s a → step s a = .ok t → C t b → step t b = .ok u → R a b)
    {s u : σ} {as : List α} (hC : Along step C s as) (hr : runs step s as = .ok u) :
    as.IsChain R := by
  induction as generalizing s with
  | nil => exact .nil
  | cons a rest ih =>
    obtain ⟨t, ht, hr⟩ := (runs_cons_eq_ok step).mp hr
    cases rest with
    | nil => exact .singleton a
    | cons b rest =>
      obtain ⟨t', ht', _⟩ := (runs_cons_eq_ok step).mp hr
      have hrest := hC.2 t ht
      exact .cons_cons (hpair hC.1 ht hrest.1 ht') (ih hrest hr)

/-- A run that is seen through functions of its states and calls is a run of what is seen. -/
theorem runs_map {τ β : Type} {step' : τ → β → Result τ} (π : σ → τ) (f : α → β)
    (hstep : ∀ s a t, step s a = .ok t → step' (π s) (f a) = .ok (π t))
    {s u : σ} {as : List α} (hr : runs step s as = .ok u) :
    runs step' (π s) (as.map f) = .ok (π u) := by
  induction as generalizing s with
  | nil =>
    obtain rfl : s = u := by simpa using hr
    rfl
  | cons a rest ih =>
    obtain ⟨t, ht, hr⟩ := (runs_cons_eq_ok step).mp hr
    exact (runs_cons_eq_ok step').mpr ⟨π t, hstep s a t ht, ih hr⟩

/-- A property of the state and of a record of the calls made so far. -/
theorem runs_recorded {ρ : Type} {record : ρ → α → ρ} (P : σ → ρ → Prop)
    (hstep : ∀ s r a t, P s r → step s a = .ok t → P t (record r a)) {s u : σ} {r : ρ} {as : List α}
    (h : P s r) (hr : runs step s as = .ok u) : P u (as.foldl record r) := by
  induction as generalizing s r with
  | nil =>
    obtain rfl : s = u := by simpa using hr
    exact h
  | cons a rest ih =>
    obtain ⟨t, ht, hr⟩ := (runs_cons_eq_ok step).mp hr
    exact ih (hstep s r a t h ht) hr

/-- Where each call from an invariant state keeps the invariant exactly if it meets a condition, the
invariant holds in every state that a run reaches exactly if all its calls meet the condition. -/
theorem runs_prefixes_iff {C : σ → α → Prop} {I : σ → Prop}
    (hstep : ∀ s a t, I s → step s a = .ok t → (I t ↔ C s a)) {s u : σ} {as : List α} (h : I s)
    (hr : runs step s as = .ok u) :
    (∀ n t, runs step s (as.take n) = .ok t → I t) ↔ Along step C s as := by
  induction as generalizing s with
  | nil =>
    refine iff_of_true (fun n t ht => ?_) trivial
    obtain rfl : s = t := by simpa using ht
    exact h
  | cons a rest ih =>
    obtain ⟨t, ht, hr⟩ := (runs_cons_eq_ok step).mp hr
    constructor
    · intro hall
      have hIt : I t := hall 1 t ((runs_cons_eq_ok step).mpr ⟨t, ht, rfl⟩)
      refine ⟨(hstep s a t h ht).mp hIt, fun t' ht' => ?_⟩
      obtain rfl : t = t' := Except.ok.inj (ht.symm.trans ht')
      exact (ih hIt hr).mp fun n u hu => hall (n + 1) u ((runs_cons_eq_ok step).mpr ⟨t, ht, hu⟩)
    · intro halong n u hu
      cases n with
      | zero =>
        obtain rfl : s = u := by simpa using hu
        exact h
      | succ n =>
        obtain ⟨t', ht', hu⟩ := (runs_cons_eq_ok step).mp hu
        obtain rfl : t = t' := Except.ok.inj (ht.symm.trans ht')
        have hIt : I t := (hstep s a t h ht).mpr halong.1
        exact (ih hIt hr).mpr (halong.2 t ht) n u hu

/-- The same, where the calls keep another invariant that the condition relies on. -/
theorem runs_prefixes_iff_of_invariant {C : σ → α → Prop} {I J : σ → Prop}
    (hJ : ∀ s a t, J s → step s a = .ok t → J t)
    (hstep : ∀ s a t, J s → I s → step s a = .ok t → (I t ↔ C s a)) {s u : σ} {as : List α}
    (h : I s) (h' : J s) (hr : runs step s as = .ok u) :
    (∀ n t, runs step s (as.take n) = .ok t → I t) ↔ Along step C s as := by
  rw [← runs_prefixes_iff (I := fun t => I t ∧ J t) ?_ ⟨h, h'⟩ hr]
  · refine forall_congr' fun n => forall_congr' fun t => forall_congr' fun ht => ?_
    exact (and_iff_left (runs_invariant J hJ h' ht)).symm
  · intro s a t hs ht
    rw [← hstep s a t hs.2 hs.1 ht]
    exact and_iff_left (hJ s a t hs.2 ht)

/-- The rule of loops. What each call establishes of its own argument, and later calls keep,
holds at the end of every argument. -/
theorem runs_each {R : σ → σ → Prop} {Q : α → σ → Prop} (hrefl : ∀ s, R s s)
    (htrans : ∀ {s t u}, R s t → R t u → R s u) (hkeep : ∀ {a s t}, Q a s → R s t → Q a t)
    (hstep : ∀ s a t, step s a = .ok t → R s t ∧ Q a t)
    {s u : σ} {as : List α} (hr : runs step s as = .ok u) : R s u ∧ ∀ a ∈ as, Q a u := by
  induction as generalizing s with
  | nil =>
    obtain rfl : s = u := by simpa using hr
    exact ⟨hrefl s, fun a ha => absurd ha List.not_mem_nil⟩
  | cons a rest ih =>
    obtain ⟨t, ht, hr⟩ := (runs_cons_eq_ok step).mp hr
    obtain ⟨hst, ha⟩ := hstep s a t ht
    obtain ⟨htu, hrest⟩ := ih hr
    refine ⟨htrans hst htu, fun b hb => ?_⟩
    rcases List.mem_cons.mp hb with rfl | hb
    · exact hkeep ha htu
    · exact hrest b hb

/-- The rule of loops over distinct keys. Each call changes one key only, so at the end every key
has been changed by its own call and by no other. -/
theorem runs_once {κ β : Type} (key : α → κ) (get : σ → κ → β) (I : σ → Prop)
    (E : α → β → β → Prop)
    (hstep : ∀ s a t, I s → step s a = .ok t →
      I t ∧ E a (get s (key a)) (get t (key a)) ∧ ∀ k, k ≠ key a → get t k = get s k)
    {s u : σ} {as : List α} (hnodup : (as.map key).Nodup) (hI : I s)
    (hr : runs step s as = .ok u) :
    I u ∧ (∀ a ∈ as, E a (get s (key a)) (get u (key a))) ∧
      ∀ k, k ∉ as.map key → get u k = get s k := by
  induction as generalizing s with
  | nil =>
    obtain rfl : s = u := by simpa using hr
    exact ⟨hI, fun a ha => absurd ha List.not_mem_nil, fun _ _ => rfl⟩
  | cons a rest ih =>
    obtain ⟨t, ht, hr⟩ := (runs_cons_eq_ok step).mp hr
    obtain ⟨hIt, ha, hoff⟩ := hstep s a t hI ht
    rw [List.map_cons, List.nodup_cons] at hnodup
    obtain ⟨hIu, hrest, hnot⟩ := ih hnodup.2 hIt hr
    refine ⟨hIu, fun b hb => ?_, fun k hk => ?_⟩
    · rcases List.mem_cons.mp hb with rfl | hb
      · rwa [hnot _ hnodup.1]
      · have hne : key b ≠ key a := fun h => hnodup.1 (h ▸ List.mem_map_of_mem hb)
        rw [← hoff _ hne]
        exact hrest b hb
    · rw [List.map_cons, List.mem_cons, not_or] at hk
      rw [hnot k hk.2, hoff k hk.1]

end Runs

/-! ### Arrays -/

section Access
variable {α : Type} {as : List α} {i : Nat}

/-- The element at an index, without which the access reverts. -/
def access (as : List α) (i : Nat) : Result α :=
  match as[i]? with
  | some a => pure a
  | none => revert ""

theorem access_eq (h : i < as.length) : access as i = .ok as[i] := by
  rw [access, List.getElem?_eq_getElem h]
  rfl

theorem access_reverse (h : i < as.length) :
    access as.reverse i = access as (as.length - 1 - i) := by
  rw [access, access, List.getElem?_reverse h]

/-- The first element, where there is one. -/
theorem access_headD {d : α} (h : 0 < as.length) : access as 0 = .ok (as.headD d) := by
  cases as with
  | nil => exact absurd h (Nat.lt_irrefl 0)
  | cons b rest => rfl

theorem access_head? {a : α} (h : access as 0 = .ok a) : as.head? = some a := by
  cases as with
  | nil => cases h
  | cons b rest => exact congrArg some (Except.ok.inj h)

theorem access_first {a d : α} (h : access as 0 = .ok a) : as.headD d = a := by
  cases as with
  | nil => cases h
  | cons b rest => exact Except.ok.inj h

theorem access_last {a d : α} (h : access as (as.length - 1) = .ok a) : as.getLastD d = a := by
  cases as with
  | nil => cases h
  | cons b rest =>
    have hlt : (b :: rest).length - 1 < (b :: rest).length := Nat.lt_succ_self _
    rw [access_eq hlt] at h
    rw [List.getLastD_eq_getLast?, List.getLast?_eq_getElem?, List.getElem?_eq_getElem hlt]
    exact Except.ok.inj h

end Access

/-- A loop that fills an array element by element returns when every element does. -/
theorem mapM_eq_ok {α β : Type} {f : α → Result β} {as : List α} {bs : List β} :
    as.mapM f = .ok bs ↔ List.Forall₂ (fun a b => f a = .ok b) as bs := by
  induction as generalizing bs with
  | nil =>
    rw [List.mapM_nil, pure_eq_ok, List.forall₂_nil_left_iff, eq_comm]
  | cons a rest ih =>
    simp only [List.mapM_cons, bind_eq_ok, pure_eq_ok, ih]
    constructor
    · rintro ⟨b, hb, bs, hbs, rfl⟩
      exact .cons hb hbs
    · rintro (_ | ⟨hb, hbs⟩)
      exact ⟨_, hb, _, hbs, rfl⟩

/-- The array such a loop returns, by what each call returns. -/
theorem mapM_eq_ok_map {α β : Type} {f : α → Result β} {g : α → β} {as : List α} {bs : List β}
    (h : as.mapM f = .ok bs) (hg : ∀ a ∈ as, ∀ b, f a = .ok b → g a = b) : bs = as.map g := by
  induction as generalizing bs with
  | nil =>
    rw [List.mapM_nil, pure_eq_ok] at h
    exact h.symm
  | cons a rest ih =>
    simp only [List.mapM_cons, bind_eq_ok, pure_eq_ok] at h
    obtain ⟨b, hb, bs, hbs, rfl⟩ := h
    rw [List.map_cons, hg a List.mem_cons_self b hb,
      ih hbs fun a ha => hg a (List.mem_cons_of_mem _ ha)]

/-- An array computed index by index. -/
theorem mapM_range_eq_ok {β : Type} {n : Nat} {f : Nat → Result β} {bs : List β}
    (h : (List.range n).mapM f = .ok bs) :
    bs.length = n ∧ ∀ i b, bs[i]? = some b → f i = .ok b := by
  have hforall := mapM_eq_ok.mp h
  have hlength : bs.length = n := by rw [← hforall.length_eq, List.length_range]
  refine ⟨hlength, fun i b hb => ?_⟩
  obtain ⟨hi, rfl⟩ := List.getElem?_eq_some_iff.mp hb
  have hrange : i < (List.range n).length := by rw [List.length_range, ← hlength]; exact hi
  have hget := hforall.get hrange hi
  rwa [List.get_eq_getElem, List.getElem_range] at hget

end IndexProtocol.Evm
