import IndexProtocol.ArrayUtils.Loops
import IndexProtocol.GeneralIndex.Run
import IndexProtocol.Manager.BaseManager

/-! The GIMExtension: rebalances for which the components are listed in any order.

The operator lists every component of the rebalance, old and new ones mixed, each with its target.
The extension sorts them into the arrays that `startRebalance` takes: the targets of old components
in the order of the SetToken, and new components as they come. It does not look for old components
that are missing, but counts: where all that is listed is distinct there is room for exactly the
others, so that a missing one shows (`covers_of_room`). A component listed twice can hide another
one, whose target is then zero. -/
namespace IndexProtocol
open Evm ModuleBase

/-! ### Keys that are distinct -/

section Keys
variable {α β : Type} [DecidableEq α] {l l' : List (α × β)} {a : α} {b : β}

theorem lookup_eq_some_iff_mem (hkeys : (l.map Prod.fst).Nodup) :
    l.lookup a = some b ↔ (a, b) ∈ l := by
  induction l with
  | nil => simp
  | cons first rest ih =>
    obtain ⟨key, value⟩ := first
    rw [List.map_cons, List.nodup_cons] at hkeys
    rw [List.mem_cons, Prod.mk.injEq]
    by_cases ha : a = key
    · subst ha
      have hnot : (a, b) ∉ rest := fun hmem => hkeys.1 (List.mem_map.mpr ⟨_, hmem, rfl⟩)
      rw [List.lookup_cons_self, Option.some.injEq]
      simp [hnot, eq_comm]
    · rw [List.lookup_cons, beq_eq_false_iff_ne.mpr ha]
      simpa [ha] using ih hkeys.2

theorem lookup_eq_of_perm (hkeys : (l.map Prod.fst).Nodup) (h : l.Perm l') :
    l.lookup a = l'.lookup a := by
  refine Option.ext fun b => ?_
  rw [lookup_eq_some_iff_mem hkeys, lookup_eq_some_iff_mem ((h.map Prod.fst).nodup_iff.mp hkeys),
    h.mem_iff]

end Keys

structure GIMExtension where
  self : Address
  generalIndexModule : Address

namespace GIMExtension
open GeneralIndexModule

/-- The arrays that the loop fills, and how many new components it wrote. -/
structure Sorted where
  newComponents : List Address
  newTargetUnits : List Nat
  oldComponentsTargetUnits : List Nat
  newCounter : Nat

section Sorting
variable (currentComponents components : List Address) (targetUnits : List Nat)

/-- The loop's body at an index. -/
def sortStep (s : Sorted) (i : Nat) : Result Sorted := do
  let component ← access components i
  let (index, isIn) := ArrayUtils.indexOf currentComponents component
  if isIn then
    let targetUnit ← access targetUnits i
    let oldComponentsTargetUnits ← write s.oldComponentsTargetUnits index targetUnit
    pure { s with oldComponentsTargetUnits := oldComponentsTargetUnits }
  else
    require (s.newCounter < s.newComponents.length) "Unexpected new component added"
    let newComponents ← write s.newComponents s.newCounter component
    let targetUnit ← access targetUnits i
    let newTargetUnits ← write s.newTargetUnits s.newCounter targetUnit
    let newCounter ← SafeMath.add s.newCounter 1
    pure ⟨newComponents, newTargetUnits, s.oldComponentsTargetUnits, newCounter⟩

def sortNewAndOldComponents : Result Sorted := do
  let currentSetComponentsLength := currentComponents.length
  let rebalanceComponentsLength := components.length
  require (currentSetComponentsLength ≤ rebalanceComponentsLength)
    "Components array must be equal or longer than current components"
  let newLength ← SafeMath.sub rebalanceComponentsLength currentSetComponentsLength
  runs (sortStep currentComponents components targetUnits)
    ⟨List.replicate newLength 0, List.replicate newLength 0,
      List.replicate currentSetComponentsLength 0, 0⟩
    (List.range rebalanceComponentsLength)

end Sorting

/-- The operator's call, which the extension has the manager make to the module. -/
def startRebalanceWithUnits (x : GIMExtension) (manager : BaseManager) (w : IndexWorld)
    (sender : Address) (components : List Address) (targetUnits : List Nat)
    (positionMultiplier : Nat) : Result IndexWorld := do
  manager.onlyOperator sender
  let sorted ← sortNewAndOldComponents w.setToken.components components targetUnits
  manager.interactManager x.self x.generalIndexModule
    (startRebalance x.generalIndexModule w manager.self sorted.newComponents sorted.newTargetUnits
      sorted.oldComponentsTargetUnits positionMultiplier)

/-! ### What the loop has written -/

variable {currentComponents components : List Address} {targetUnits : List Nat}
  {entries : List (Address × Nat)} {entry : Address × Nat} {room : Nat} {s : Sorted}

/-- The entries of new components. -/
def newEntries (currentComponents : List Address) (entries : List (Address × Nat)) :
    List (Address × Nat) :=
  entries.filter fun entry => entry.1 ∉ currentComponents

/-- The unit in the last entry of a component, and zero where there is none. -/
def lastUnit (entries : List (Address × Nat)) (component : Address) : Nat :=
  (entries.reverse.lookup component).getD 0

/-- The arrays for some entries, with `room` for new components. -/
def sorted (currentComponents : List Address) (entries : List (Address × Nat)) (room : Nat) :
    Sorted :=
  let new := newEntries currentComponents entries
  ⟨new.map Prod.fst ++ List.replicate (room - new.length) 0,
    new.map Prod.snd ++ List.replicate (room - new.length) 0,
    currentComponents.map (lastUnit entries), new.length⟩

theorem lastUnit_append (component : Address) :
    lastUnit (entries ++ [entry]) component =
      if component = entry.1 then entry.2 else lastUnit entries component := by
  rw [lastUnit, List.reverse_append, List.reverse_singleton, List.singleton_append,
    List.lookup_cons]
  by_cases h : component = entry.1
  · rw [if_pos h, beq_iff_eq.mpr h]
    rfl
  · rw [if_neg h, beq_eq_false_iff_ne.mpr h]
    rfl

theorem newEntries_append :
    newEntries currentComponents (entries ++ [entry]) =
      newEntries currentComponents entries ++
        if entry.1 ∈ currentComponents then [] else [entry] := by
  rw [newEntries, List.filter_append, ← newEntries]
  by_cases h : entry.1 ∈ currentComponents <;> simp [h]

/-- The old component's place in the order of the SetToken gets its unit. -/
theorem set_lastUnit (hcurrent : currentComponents.Nodup) :
    (currentComponents.map (lastUnit entries)).set (currentComponents.idxOf entry.1) entry.2 =
      currentComponents.map (lastUnit (entries ++ [entry])) := by
  refine List.ext_getElem (by simp) fun i hi hi' => ?_
  have hlt : i < currentComponents.length := by simpa using hi'
  rw [List.getElem_set, List.getElem_map, List.getElem_map, lastUnit_append]
  refine if_congr ⟨fun hindex => ?_, fun hcomponent => ?_⟩ rfl rfl
  · simp only [← hindex]
    exact List.getElem_idxOf _
  · rw [← hcomponent]
    exact hcurrent.idxOf_getElem i hlt

/-! ### The loop -/

/-- The place behind what is written takes an element. -/
theorem write_zeros {α : Type} {written : List α} {a : α} (zero : α)
    (hlt : written.length < room) :
    write (written ++ List.replicate (room - written.length) zero) written.length a =
      .ok (written ++ [a] ++ List.replicate (room - (written.length + 1)) zero) := by
  have hzeros : List.replicate (room - written.length) zero =
      zero :: List.replicate (room - (written.length + 1)) zero := by
    rw [← List.replicate_succ]
    congr 1
    omega
  rw [hzeros, write_append, List.append_assoc]
  rfl

/-- The loop's body for a component and its unit. -/
def sortEntry (currentComponents : List Address) (s : Sorted) (entry : Address × Nat) :
    Result Sorted := do
  let (index, isIn) := ArrayUtils.indexOf currentComponents entry.1
  if isIn then
    let oldComponentsTargetUnits ← write s.oldComponentsTargetUnits index entry.2
    pure { s with oldComponentsTargetUnits := oldComponentsTargetUnits }
  else
    require (s.newCounter < s.newComponents.length) "Unexpected new component added"
    let newComponents ← write s.newComponents s.newCounter entry.1
    let newTargetUnits ← write s.newTargetUnits s.newCounter entry.2
    let newCounter ← SafeMath.add s.newCounter 1
    pure ⟨newComponents, newTargetUnits, s.oldComponentsTargetUnits, newCounter⟩

theorem sortStep_eq {i : Nat} (hcomponents : i < components.length)
    (hunits : i < targetUnits.length) :
    sortStep currentComponents components targetUnits s i =
      sortEntry currentComponents s (components[i], targetUnits[i]) := by
  simp only [sortStep, sortEntry, access_eq hcomponents, access_eq hunits, ok_bind]

/-- The loop over the indices is one over the entries. -/
theorem sorts_eq (hunits : components.length ≤ targetUnits.length) :
    runs (sortStep currentComponents components targetUnits) s (List.range components.length) =
      runs (sortEntry currentComponents) s (components.zip targetUnits) := by
  have hentries : components.zip targetUnits = (List.range components.length).map fun i =>
      (components[i]?.getD 0, targetUnits[i]?.getD 0) := by
    refine List.ext_getElem (by simpa using hunits) fun i hi hi' => ?_
    have hlt : i < components.length := by simpa using hi'
    rw [List.getElem_zip, List.getElem_map, List.getElem_range, List.getElem?_eq_getElem hlt,
      List.getElem?_eq_getElem (hlt.trans_le hunits), Option.getD_some, Option.getD_some]
  rw [hentries, runs, runs, List.foldlM_map]
  refine runs_congr _ fun s i hi => ?_
  have hlt := List.mem_range.mp hi
  rw [sortStep_eq hlt (hlt.trans_le hunits), List.getElem?_eq_getElem hlt,
    List.getElem?_eq_getElem (hlt.trans_le hunits), Option.getD_some, Option.getD_some]

/-- One more entry is sorted exactly where there is room for it. -/
theorem sortEntry_eq_ok (hcurrent : currentComponents.Nodup) (hbound : room < uintBound)
    (hroom : (newEntries currentComponents entries).length ≤ room) :
    sortEntry currentComponents (sorted currentComponents entries room) entry = .ok s ↔
      (newEntries currentComponents (entries ++ [entry])).length ≤ room ∧
        sorted currentComponents (entries ++ [entry]) room = s := by
  by_cases hmem : entry.1 ∈ currentComponents
  · have hindex : currentComponents.idxOf entry.1 <
        (currentComponents.map (lastUnit entries)).length := by
      rw [List.length_map]
      exact List.idxOf_lt_length_of_mem hmem
    have hnew : newEntries currentComponents (entries ++ [entry]) =
        newEntries currentComponents entries := by
      rw [newEntries_append, if_pos hmem, List.append_nil]
    simp only [sortEntry, ArrayUtils.indexOf, if_pos hmem, if_true, sorted, write, if_pos hindex,
      set_lastUnit hcurrent, hnew, bind_eq_ok, pure_eq_ok, exists_eq_left']
    exact (and_iff_right hroom).symm
  · have hnew : newEntries currentComponents (entries ++ [entry]) =
        newEntries currentComponents entries ++ [entry] := by
      rw [newEntries_append, if_neg hmem]
    have hold : currentComponents.map (lastUnit (entries ++ [entry])) =
        currentComponents.map (lastUnit entries) := by
      refine List.map_congr_left fun component hcomponent => ?_
      have hne : component ≠ entry.1 := fun heq => hmem (heq ▸ hcomponent)
      rw [lastUnit_append, if_neg hne]
    simp only [sortEntry, ArrayUtils.indexOf, if_neg hmem, Bool.false_eq_true, if_false, bind_eq_ok,
      require_eq_ok, exists_const, pure_eq_ok]
    simp only [sorted, hnew, hold]
    generalize newEntries currentComponents entries = new at hroom ⊢
    rw [List.length_append, List.length_map, List.length_replicate, List.length_append,
      List.length_singleton]
    by_cases hlt : new.length < room
    · have hwrite {α : Type} (f : Address × Nat → α) (zero : α) :
          write (new.map f ++ List.replicate (room - new.length) zero) new.length (f entry) =
            .ok ((new ++ [entry]).map f ++ List.replicate (room - (new.length + 1)) zero) := by
        have hplace := write_zeros (a := f entry) zero (hlt.trans_eq' (List.length_map f).symm)
        rw [List.length_map] at hplace
        rw [hplace, List.map_append]
        rfl
      rw [hwrite Prod.fst 0, hwrite Prod.snd 0]
      simp only [Except.ok.injEq, exists_eq_left', SafeMath.add_eq_ok]
      constructor
      · rintro ⟨_, _, ⟨_, rfl⟩, rfl⟩
        exact ⟨hlt, rfl⟩
      · rintro ⟨_, rfl⟩
        exact ⟨by omega, _, ⟨by omega, rfl⟩, rfl⟩
    · exact iff_of_false (fun h => hlt (by omega)) fun h => hlt (by omega)

theorem newEntries_length_le (entries rest : List (Address × Nat)) :
    (newEntries currentComponents entries).length ≤
      (newEntries currentComponents (entries ++ rest)).length := by
  rw [newEntries, newEntries, List.filter_append, List.length_append]
  exact Nat.le_add_right _ _

theorem sortEntries_eq_ok {rest : List (Address × Nat)} (hcurrent : currentComponents.Nodup)
    (hbound : room < uintBound) (hroom : (newEntries currentComponents entries).length ≤ room) :
    runs (sortEntry currentComponents) (sorted currentComponents entries room) rest = .ok s ↔
      (newEntries currentComponents (entries ++ rest)).length ≤ room ∧
        sorted currentComponents (entries ++ rest) room = s := by
  induction rest generalizing entries with
  | nil =>
    rw [List.append_nil, runs_nil, Except.ok.injEq]
    exact (and_iff_right hroom).symm
  | cons entry rest ih =>
    rw [runs_cons_eq_ok, List.append_cons entries entry rest]
    constructor
    · rintro ⟨t, hentry, hrest⟩
      obtain ⟨hfits, rfl⟩ := (sortEntry_eq_ok hcurrent hbound hroom).mp hentry
      exact (ih hfits).mp hrest
    · intro h
      have hfits := (newEntries_length_le (entries ++ [entry]) rest).trans h.1
      exact ⟨_, (sortEntry_eq_ok hcurrent hbound hroom).mpr ⟨hfits, rfl⟩, (ih hfits).mpr h⟩

/-- Each component needs a unit. -/
theorem units_of_sorts {start : Sorted} {n : Nat}
    (h : runs (sortStep currentComponents components targetUnits) start (List.range n) = .ok s) :
    n ≤ targetUnits.length := by
  have hread : ∀ i ∈ List.range n, i < targetUnits.length := by
    refine (runs_each (R := fun _ _ => True) (Q := fun i _ => i < targetUnits.length)
      (fun _ => trivial) (fun _ _ => trivial) (fun hi _ => hi) (fun s i t ht => ⟨trivial, ?_⟩) h).2
    by_contra hnot
    have hnone : access targetUnits i = revert "" := by
      rw [access, List.getElem?_eq_none (Nat.le_of_not_lt hnot)]
    simp only [sortStep, hnone, bind_eq_ok] at ht
    obtain ⟨component, _, ht⟩ := ht
    split_ifs at ht
    · simp only [bind_eq_ok, revert_eq_ok, false_and, exists_false] at ht
    · simp only [bind_eq_ok, revert_eq_ok, false_and, exists_false, and_false] at ht
  by_contra hlong
  have hlast := hread targetUnits.length (List.mem_range.mpr (Nat.lt_of_not_le hlong))
  exact absurd hlast (Nat.lt_irrefl _)

/-- What the sorting returns, and that it does where there is room for the new components. -/
theorem sortNewAndOldComponents_eq_ok (hcurrent : currentComponents.Nodup)
    (hlength : components.length < uintBound) :
    sortNewAndOldComponents currentComponents components targetUnits = .ok s ↔
      currentComponents.length ≤ components.length ∧ components.length ≤ targetUnits.length ∧
        (newEntries currentComponents (components.zip targetUnits)).length ≤
          components.length - currentComponents.length ∧
        sorted currentComponents (components.zip targetUnits)
          (components.length - currentComponents.length) = s := by
  have hstart : sorted currentComponents [] (components.length - currentComponents.length) =
      ⟨List.replicate (components.length - currentComponents.length) 0,
        List.replicate (components.length - currentComponents.length) 0,
        List.replicate currentComponents.length 0, 0⟩ := by
    rw [← List.map_const']
    rfl
  simp only [sortNewAndOldComponents, bind_eq_ok, require_eq_ok, exists_const, SafeMath.sub_eq_ok]
  have hbound : components.length - currentComponents.length < uintBound := by omega
  constructor
  · rintro ⟨hle, _, ⟨_, rfl⟩, hsorts⟩
    have hunits := units_of_sorts hsorts
    rw [← hstart, sorts_eq hunits] at hsorts
    exact ⟨hle, hunits, (sortEntries_eq_ok hcurrent hbound (Nat.zero_le _)).mp hsorts⟩
  · rintro ⟨hle, hunits, hsorted⟩
    refine ⟨hle, _, ⟨hle, rfl⟩, ?_⟩
    rw [← hstart, sorts_eq hunits]
    exact (sortEntries_eq_ok hcurrent hbound (Nat.zero_le _)).mpr hsorted

/-! ### Distinct components -/

/-- A component that is listed twice hides the second one, whose target becomes zero. -/
example : sortNewAndOldComponents [1, 2] [1, 1] [5, 6] = .ok ⟨[], [], [6, 0], 0⟩ := rfl

section Distinct

theorem oldComponents_length (currentComponents components : List Address) :
    (components.filter (· ∈ currentComponents)).length +
      (components.filter (· ∉ currentComponents)).length = components.length := by
  have hsplit := List.length_eq_length_filter_add (l := components) (· ∈ currentComponents)
  simp only [← decide_not] at hsplit
  exact hsplit.symm

/-- The old components that are listed are all of them. -/
theorem oldComponents_perm (hcurrent : currentComponents.Nodup) (hdistinct : components.Nodup)
    (hcovers : ∀ c ∈ currentComponents, c ∈ components) :
    (components.filter (· ∈ currentComponents)).Perm currentComponents := by
  rw [List.perm_ext_iff_of_nodup (hdistinct.filter _) hcurrent]
  intro c
  rw [List.mem_filter, decide_eq_true_iff]
  exact and_iff_right_of_imp (hcovers c)

/-- Where there is room for the new components, every old one is listed. -/
theorem covers_of_room (hdistinct : components.Nodup)
    (hle : currentComponents.length ≤ components.length)
    (hroom : (components.filter (· ∉ currentComponents)).length ≤
      components.length - currentComponents.length) :
    ∀ c ∈ currentComponents, c ∈ components := by
  intro c hc
  have hold : components.filter (· ∈ currentComponents) ⊆ currentComponents := fun c hc => by
    simpa using (List.mem_filter.mp hc).2
  have hlength := oldComponents_length currentComponents components
  have hperm := (List.subperm_of_subset (hdistinct.filter _) hold).perm_of_length_le (by omega)
  exact List.mem_of_mem_filter (hperm.mem_iff.mpr hc)

theorem newEntries_components (hunits : components.length ≤ targetUnits.length) :
    (newEntries currentComponents (components.zip targetUnits)).map Prod.fst =
      components.filter (· ∉ currentComponents) := by
  conv_rhs => rw [← List.map_fst_zip hunits, List.filter_map]
  rfl

/-- The entries that the module sees. -/
def aggregateEntries (currentComponents : List Address) (entries : List (Address × Nat)) :
    List (Address × Nat) :=
  currentComponents.map (fun c => (c, lastUnit entries c)) ++ newEntries currentComponents entries

theorem zip_sorted :
    (currentComponents ++ (newEntries currentComponents entries).map Prod.fst).zip
        (currentComponents.map (lastUnit entries) ++
          (newEntries currentComponents entries).map Prod.snd) =
      aggregateEntries currentComponents entries := by
  rw [List.zip_append (List.length_map _).symm, List.zip_map', aggregateEntries]
  congr 1
  · conv_lhs => rw [← List.map_id currentComponents, List.map_map, List.zip_map']
    rfl
  · exact List.map_id _

theorem aggregateEntries_components (hunits : components.length ≤ targetUnits.length) :
    (aggregateEntries currentComponents (components.zip targetUnits)).map Prod.fst =
      currentComponents ++ components.filter (· ∉ currentComponents) := by
  rw [aggregateEntries, List.map_append, newEntries_components hunits, List.map_map]
  congr 1
  exact List.map_id _

theorem lastUnit_eq_iff {c : Address} {unit : Nat} (hkeys : (entries.map Prod.fst).Nodup)
    (hc : c ∈ entries.map Prod.fst) : lastUnit entries c = unit ↔ (c, unit) ∈ entries := by
  obtain ⟨⟨key, value⟩, hmem, rfl⟩ := List.mem_map.mp hc
  have hreverse : entries.reverse.lookup key = some value := by
    rw [← lookup_eq_of_perm hkeys (List.reverse_perm _).symm]
    exact (lookup_eq_some_iff_mem hkeys).mpr hmem
  rw [← lookup_eq_some_iff_mem hkeys, (lookup_eq_some_iff_mem hkeys).mpr hmem, lastUnit, hreverse,
    Option.getD_some, Option.some.injEq]

/-- The module sees each entry, in another order. -/
theorem aggregateEntries_perm (hkeys : (entries.map Prod.fst).Nodup)
    (hcurrent : currentComponents.Nodup)
    (hcovers : ∀ c ∈ currentComponents, c ∈ entries.map Prod.fst) :
    (aggregateEntries currentComponents entries).Perm entries := by
  have hold : (currentComponents.map fun c => (c, lastUnit entries c)).Perm
      (entries.filter fun entry => entry.1 ∈ currentComponents) := by
    rw [List.perm_ext_iff_of_nodup (hcurrent.map fun c d h => congrArg Prod.fst h)
      ((List.Nodup.of_map _ hkeys).filter _)]
    rintro ⟨c, unit⟩
    rw [List.mem_map, List.mem_filter, decide_eq_true_iff]
    constructor
    · rintro ⟨d, hd, heq⟩
      obtain ⟨rfl, rfl⟩ := Prod.mk.injEq _ _ _ _ ▸ heq
      exact ⟨(lastUnit_eq_iff hkeys (hcovers d hd)).mp rfl, hd⟩
    · rintro ⟨hmem, hc⟩
      exact ⟨c, hc, Prod.ext rfl ((lastUnit_eq_iff hkeys (hcovers c hc)).mpr hmem)⟩
  refine (hold.append_right _).trans ?_
  have hsplit := List.filter_append_perm (fun entry : Address × Nat => entry.1 ∈ currentComponents)
    entries
  simpa [newEntries] using hsplit

end Distinct

/-! ### The rebalance that starts -/

/-- Each target is the one listed. What is not listed keeps its own. -/
structure Targeted (w v : IndexWorld) (components : List Address) (targetUnits : List Nat)
    (positionMultiplier : Nat) : Prop where
  setToken : v.setToken = w.setToken
  positionMultiplier : (rebalance v).positionMultiplier = positionMultiplier
  /-- Old components come in the order of the SetToken, and then new ones as they are listed. -/
  rebalanceComponents : (rebalance v).rebalanceComponents =
    w.setToken.components ++ components.filter (· ∉ w.setToken.components)
  targets : ∀ c, (execution v c).targetUnit =
    ((components.zip targetUnits).lookup c).getD (execution w c).targetUnit

section Start
variable {x : GIMExtension} {manager : BaseManager} {module sender : Address} {w v : IndexWorld}
  {newComponents : List Address} {newUnits oldUnits : List Nat} {positionMultiplier : Nat}

theorem setTargets_returns_iff {pairs : List (Address × Nat)} :
    (∃ v, runs (fun (w : IndexWorld) (component, targetUnit) => do
        require (Position.hasExternalPosition w.setToken component = false)
          "External positions not allowed"
        pure (withExecution w component { execution w component with targetUnit := targetUnit }))
      w pairs = .ok v) ↔
      ∀ c ∈ pairs.map Prod.fst, Position.hasExternalPosition w.setToken c = false := by
  induction pairs generalizing w with
  | nil => simp
  | cons pair rest ih =>
    rw [List.map_cons, List.forall_mem_cons]
    simp only [runs_cons_eq_ok, bind_eq_ok, require_eq_ok, exists_const, pure_eq_ok]
    constructor
    · rintro ⟨v, u, ⟨hfirst, rfl⟩, hrest⟩
      have hrest := ih.mp ⟨v, hrest⟩
      exact ⟨hfirst, hrest⟩
    · rintro ⟨hfirst, hrest⟩
      obtain ⟨v, hv⟩ := (ih (w := withExecution w pair.1
        { execution w pair.1 with targetUnit := pair.2 })).mpr hrest
      exact ⟨v, _, ⟨hfirst, rfl⟩, hv⟩

theorem startRebalance_returns_iff :
    (∃ v, startRebalance module w sender newComponents newUnits oldUnits positionMultiplier =
      .ok v) ↔
      validateOnlyManagerAndValidSet w.setToken module sender = .ok () ∧
        newComponents.length = newUnits.length ∧ w.setToken.components.length = oldUnits.length ∧
        w.setToken.components ++ newComponents ≠ [] ∧
        (w.setToken.components ++ newComponents).Nodup ∧
        ∀ c ∈ w.setToken.components ++ newComponents,
          Position.hasExternalPosition w.setToken c = false := by
  simp only [startRebalance, getAggregateComponentsAndUnits, AddressArrayUtils.hasDuplicate,
    ArrayUtils.hasDuplicate, bind_eq_ok, require_eq_ok, exists_const, pure_eq_ok,
    List.length_pos_iff]
  have hkeys (hnew : newComponents.length = newUnits.length)
      (hold : w.setToken.components.length = oldUnits.length) :
      ((w.setToken.components ++ newComponents).zip (oldUnits ++ newUnits)).map Prod.fst =
        w.setToken.components ++ newComponents :=
    List.map_fst_zip (by rw [List.length_append, List.length_append, hnew, hold])
  constructor
  · rintro ⟨v, _, hvalid, _, ⟨hnew, hold, _, ⟨hne, rfl⟩, hrepeats, rfl⟩, u, htargets, rfl⟩
    have hexternal := setTargets_returns_iff.mp ⟨u, htargets⟩
    rw [hkeys hnew hold] at hexternal
    exact ⟨hvalid, hnew, hold, hne, (ArrayUtils.repeats_eq_false _).mp hrepeats, hexternal⟩
  · rintro ⟨hvalid, hnew, hold, hne, hnodup, hexternal⟩
    rw [← hkeys hnew hold] at hexternal
    obtain ⟨u, htargets⟩ := setTargets_returns_iff.mpr hexternal
    exact ⟨_, _, hvalid, _, ⟨hnew, hold, _, ⟨hne, rfl⟩, (ArrayUtils.repeats_eq_false _).mpr hnodup,
      rfl⟩, u, htargets, rfl⟩

theorem startRebalance_components
    (h : startRebalance module w sender newComponents newUnits oldUnits positionMultiplier =
      .ok v) : (rebalance v).rebalanceComponents = w.setToken.components ++ newComponents := by
  simp only [startRebalance, getAggregateComponentsAndUnits, bind_eq_ok, pure_eq_ok] at h
  obtain ⟨_, _, _, ⟨_, _, _, _, _, _, _, _, rfl⟩, _, _, rfl⟩ := h
  rfl

/-- The call that the manager makes where the components are distinct. -/
theorem startRebalanceWithUnits_eq_ok (hcurrent : w.setToken.components.Nodup)
    (hdistinct : components.Nodup) (hlength : components.length < uintBound) :
    startRebalanceWithUnits x manager w sender components targetUnits positionMultiplier = .ok v ↔
      sender = manager.operator ∧ manager.Permits x.self x.generalIndexModule ∧
        components.length ≤ targetUnits.length ∧ (∀ c ∈ w.setToken.components, c ∈ components) ∧
        startRebalance x.generalIndexModule w manager.self
          ((newEntries w.setToken.components (components.zip targetUnits)).map Prod.fst)
          ((newEntries w.setToken.components (components.zip targetUnits)).map Prod.snd)
          (w.setToken.components.map (lastUnit (components.zip targetUnits))) positionMultiplier =
            .ok v := by
  have hnew (hunits : components.length ≤ targetUnits.length) :
      (newEntries w.setToken.components (components.zip targetUnits)).length =
        (components.filter (· ∉ w.setToken.components)).length := by
    rw [← newEntries_components hunits, List.length_map]
  simp only [startRebalanceWithUnits, BaseManager.onlyOperator, bind_eq_ok, require_eq_ok,
    exists_const, BaseManager.interactManager_eq_ok, sortNewAndOldComponents_eq_ok hcurrent hlength]
  constructor
  · rintro ⟨hoperator, _, ⟨hle, hunits, hroom, rfl⟩, hpermits, hstart⟩
    have hcovers := covers_of_room hdistinct hle (hnew hunits ▸ hroom)
    have hsplit := oldComponents_length w.setToken.components components
    have hold := (oldComponents_perm hcurrent hdistinct hcovers).length_eq
    rw [sorted, Nat.sub_eq_zero_of_le (by rw [hnew hunits]; omega)] at hstart
    simp only [List.replicate_zero, List.append_nil] at hstart
    exact ⟨hoperator, hpermits, hunits, hcovers, hstart⟩
  · rintro ⟨hoperator, hpermits, hunits, hcovers, hstart⟩
    have hsplit := oldComponents_length w.setToken.components components
    have hold := (oldComponents_perm hcurrent hdistinct hcovers).length_eq
    have hroom := hnew hunits
    refine ⟨hoperator, _, ⟨by omega, hunits, by omega, rfl⟩, hpermits, ?_⟩
    rw [sorted, Nat.sub_eq_zero_of_le (by omega)]
    simpa only [List.replicate_zero, List.append_nil] using hstart

end Start

section Reachable
variable {controller : Controller} {factory self creator sender : Address}
  {initial modules : List Address} {units : List Int} {s : SetToken} {calls : List SetToken.Call}
  {x : GIMExtension} {manager : BaseManager} {w : IndexWorld} {positionMultiplier : Nat}

/-- **The order does not matter.** For a SetToken reached from its creation, and components that are
distinct, the rebalance starts exactly if the operator calls it, the manager permits the extension
to call the module and is that of a SetToken for which the module is initialized, and some
components are listed, each with a target and none with an external position, that leave no old
one out; and then each target is the one listed. -/
theorem startRebalanceWithUnits_returns_iff
    (hcreate : SetTokenCreator.create controller factory self initial units modules creator = .ok s)
    (hrun : runs SetToken.call s calls = .ok w.setToken) (hdistinct : components.Nodup)
    (hlength : components.length < uintBound) :
    ((∃ v, startRebalanceWithUnits x manager w sender components targetUnits positionMultiplier =
      .ok v) ↔
      sender = manager.operator ∧ manager.Permits x.self x.generalIndexModule ∧
        validateOnlyManagerAndValidSet w.setToken x.generalIndexModule manager.self = .ok () ∧
        components ≠ [] ∧ components.length ≤ targetUnits.length ∧
        (∀ c ∈ w.setToken.components, c ∈ components) ∧
        ∀ c ∈ components, Position.hasExternalPosition w.setToken c = false) ∧
    ∀ v, startRebalanceWithUnits x manager w sender components targetUnits positionMultiplier =
      .ok v → Targeted w v components targetUnits positionMultiplier := by
  have hcurrent := (SetToken.reachable_wellFormed hcreate hrun).components.nodup
  simp only [startRebalanceWithUnits_eq_ok hcurrent hdistinct hlength]
  have hperm (hcovers : ∀ c ∈ w.setToken.components, c ∈ components)
      (hunits : components.length ≤ targetUnits.length) :
      (aggregateEntries w.setToken.components (components.zip targetUnits)).Perm
        (components.zip targetUnits) := by
    refine aggregateEntries_perm ?_ hcurrent ?_
    · rwa [List.map_fst_zip hunits]
    · rwa [List.map_fst_zip hunits]
  have hkeys (hcovers : ∀ c ∈ w.setToken.components, c ∈ components)
      (hunits : components.length ≤ targetUnits.length) :
      (w.setToken.components ++ components.filter (· ∉ w.setToken.components)).Perm components := by
    rw [← aggregateEntries_components hunits]
    simpa only [List.map_fst_zip hunits] using (hperm hcovers hunits).map Prod.fst
  constructor
  · simp only [exists_and_left, startRebalance_returns_iff]
    constructor
    · rintro ⟨hoperator, hpermits, hunits, hcovers, hvalid, _, _, hne, _, hexternal⟩
      rw [newEntries_components hunits] at hne hexternal
      have hall := hkeys hcovers hunits
      refine ⟨hoperator, hpermits, hvalid, fun hnil => hne ?_, hunits, hcovers, fun c hc => ?_⟩
      · exact List.perm_nil.mp (hnil ▸ hall)
      · exact hexternal c (hall.mem_iff.mpr hc)
    · rintro ⟨hoperator, hpermits, hvalid, hne, hunits, hcovers, hexternal⟩
      rw [newEntries_components hunits]
      have hall := hkeys hcovers hunits
      refine ⟨hoperator, hpermits, hunits, hcovers, hvalid, ?_, (List.length_map _).symm,
        fun hnil => hne ?_, hall.nodup_iff.mpr hdistinct, fun c hc => hexternal c (hall.mem_iff.mp hc)⟩
      · rw [← newEntries_components hunits, List.length_map, List.length_map]
      · exact List.nil_perm.mp (hnil ▸ hall)
  · rintro v ⟨_, _, hunits, hcovers, hstart⟩
    have heq (c : Address) : v.setToken = w.setToken ∧
        (rebalance v).positionMultiplier = positionMultiplier ∧
        (execution v c).targetUnit = rebalanceTarget c w _ _ _ := startRebalance_eq hstart
    refine ⟨(heq 0).1, (heq 0).2.1, ?_, fun c => ?_⟩
    · rw [startRebalance_components hstart, newEntries_components hunits]
    · rw [(heq c).2.2, rebalanceTarget, zip_sorted]
      congr 1
      refine (lookup_eq_of_perm ?_ (hperm hcovers hunits).symm).symm
      rwa [List.map_fst_zip hunits]

end Reachable

/-! A SetToken of the components 1 and 2 gets 3 as well, and is to sell all of 1. The module is
protected, and the extension authorized for it. -/

section Example
open AuctionRebalanceModuleV1 (exampleController)

def exampleExtension : GIMExtension := ⟨70, 50⟩

def exampleManager : Result BaseManager := do
  let m ← (BaseManager.construct 9 100 33 34).authorizeInitialization 34
  m.protect 50 [70]

theorem startRebalanceWithUnits_example : ∃ m w s v, exampleManager = .ok m ∧
    exampleIndex = .ok w ∧
    runs SetToken.call w.setToken [.initializeModule 50, .changeController exampleController] =
      .ok s ∧
    startRebalanceWithUnits exampleExtension m { w with setToken := s } 33 [3, 2, 1] [7, 5, 0]
      (10 ^ 18) = .ok v ∧
    Targeted { w with setToken := s } v [3, 2, 1] [7, 5, 0] (10 ^ 18) ∧
    (¬∃ v, startRebalanceWithUnits exampleExtension m { w with setToken := s } 33 [3, 2] [7, 5]
      (10 ^ 18) = .ok v) ∧
    ¬∃ v, startRebalanceWithUnits ⟨71, 50⟩ m { w with setToken := s } 33 [3, 2, 1] [7, 5, 0]
      (10 ^ 18) = .ok v := by
  have h : (do
      let m ← exampleManager
      let w ← exampleIndex
      let s ← runs SetToken.call w.setToken
        [.initializeModule 50, .changeController exampleController]
      let v ← startRebalanceWithUnits exampleExtension m { w with setToken := s } 33 [3, 2, 1]
        [7, 5, 0] (10 ^ 18)
      require ((rebalance v).rebalanceComponents = [1, 2, 3] ∧ s.components = [1, 2] ∧
        ¬m.Permits 71 50) "") = .ok () := by
    decide +kernel
  simp only [bind_eq_ok, require_eq_ok] at h
  obtain ⟨m, hm, w, hw, s, hs, v, hv, _, hcomponents, hstranger⟩ := h
  have hcreate := (exampleIndex_spec hw).1
  refine ⟨m, w, s, v, hm, hw, hs, hv, (startRebalanceWithUnits_returns_iff
    (w := { w with setToken := s }) hcreate hs (by decide) (by decide)).2 v hv, fun hmissing => ?_,
    fun hforeign => ?_⟩
  · have hcovers := ((startRebalanceWithUnits_returns_iff (w := { w with setToken := s })
      hcreate hs (by decide) (by decide)).1.mp hmissing).2.2.2.2.2.1
    have hlisted := hcovers 1 (by rw [hcomponents]; decide)
    exact absurd hlisted (by decide)
  · exact hstranger ((startRebalanceWithUnits_returns_iff (w := { w with setToken := s })
      hcreate hs (by decide) (by decide)).1.mp hforeign).2.1

end Example

end GIMExtension

end IndexProtocol
