import IndexProtocol.Evm.Result
import Mathlib.Logic.Function.Basic
import Mathlib.Order.Basic
import Mathlib.Order.Lattice

/-! Values as they were at earlier times.

A checkpoint is a value and the time from which it held. A history numbers its
checkpoints in the order of their times, and of two values recorded at one time it
keeps the second. What held at a time is the value of the newest checkpoint that is
not later: a scan from the newest one back finds it, and where the times increase so
does a search that halves. A machine that records a value at every step that changes
it can tell later what the value was after the last step up to a time (`recalled`). -/
namespace IndexProtocol
open Evm

structure Checkpoint (α : Type) where
  time : Nat
  value : α

/-- Checkpoints by number, of which `count` are written. -/
structure History (α : Type) where
  checkpoint : Nat → Checkpoint α
  count : Nat

namespace History
variable {α : Type}

/-- From the newest of so many checkpoints back. -/
def scan (checkpoint : Nat → Checkpoint α) (d : α) (time : Nat) : Nat → α
  | 0 => d
  | n + 1 => if (checkpoint n).time ≤ time then (checkpoint n).value else scan checkpoint d time n

/-- What held at a time, and `d` before the first checkpoint. -/
def valueAt (h : History α) (d : α) (time : Nat) : α := scan h.checkpoint d time h.count

def latest (h : History α) (d : α) : α :=
  if 0 < h.count then (h.checkpoint (h.count - 1)).value else d

/-- One checkpoint more. -/
def push (h : History α) (time : Nat) (value : α) : History α :=
  ⟨Function.update h.checkpoint h.count ⟨time, value⟩, h.count + 1⟩

/-- Another value in the newest checkpoint. -/
def replaceLast (h : History α) (value : α) : History α :=
  { h with checkpoint :=
      Function.update h.checkpoint (h.count - 1) { h.checkpoint (h.count - 1) with value := value } }

def record (h : History α) (time : Nat) (value : α) : History α :=
  if 0 < h.count ∧ (h.checkpoint (h.count - 1)).time = time then h.replaceLast value
  else h.push time value

/-- Halves what is between two checkpoints, until one is left or a time is met exactly. -/
def search (checkpoint : Nat → Checkpoint α) (time lower upper : Nat) : α :=
  if lower < upper then
    -- Rounded up, so that the upper half is never all there is.
    let center := upper - (upper - lower) / 2
    let cp := checkpoint center
    if cp.time = time then cp.value
    else if cp.time < time then search checkpoint time center upper
    else search checkpoint time lower (center - 1)
  else (checkpoint lower).value
termination_by upper - lower

/-- The checkpoints are no later than `now`, and their times increase from the first one on, which
is later than zero. -/
structure UpTo (h : History α) (now : Nat) : Prop where
  past : ∀ i < h.count, (h.checkpoint i).time ≤ now
  increasing : ∀ i j, i < j → j < h.count → (h.checkpoint i).time < (h.checkpoint j).time
  number_lt : ∀ i < h.count, i < (h.checkpoint i).time

variable {h : History α} {checkpoint : Nat → Checkpoint α} {d v : α} {time now n i : Nat}

theorem UpTo.empty (now : Nat) (hnone : h.count = 0) : h.UpTo now := by
  refine ⟨?_, ?_, ?_⟩ <;> intros <;> omega

theorem UpTo.later {now' : Nat} (hh : h.UpTo now) (hle : now ≤ now') : h.UpTo now' :=
  { hh with past := fun i hi => (hh.past i hi).trans hle }

/-- There are not more checkpoints than there were times. -/
theorem UpTo.count_le (hh : h.UpTo now) : h.count ≤ now := by
  by_cases hcount : h.count = 0
  · omega
  · have hpast := hh.past (h.count - 1) (by omega)
    have hnumber := hh.number_lt (h.count - 1) (by omega)
    omega

/-! ### The scan -/

/-- It ends at the checkpoint after which all are later. -/
theorem scan_eq (hi : i < n) (hle : (checkpoint i).time ≤ time)
    (hlater : ∀ j, i < j → j < n → time < (checkpoint j).time) :
    scan checkpoint d time n = (checkpoint i).value := by
  induction n with
  | zero => omega
  | succ n ih =>
    rw [scan]
    by_cases hlast : i = n
    · subst hlast
      rw [if_pos hle]
    · have hn := hlater n (by omega) (by omega)
      rw [if_neg (by omega)]
      exact ih (by omega) fun j hij hj => hlater j hij (by omega)

theorem scan_eq_default (hlater : ∀ i < n, time < (checkpoint i).time) :
    scan checkpoint d time n = d := by
  induction n with
  | zero => rfl
  | succ n ih =>
    have hn := hlater n (by omega)
    rw [scan, if_neg (by omega)]
    exact ih fun i hi => hlater i (by omega)

theorem scan_congr {checkpoint' : Nat → Checkpoint α} (h : ∀ i < n, checkpoint i = checkpoint' i) :
    scan checkpoint d time n = scan checkpoint' d time n := by
  induction n with
  | zero => rfl
  | succ n ih =>
    rw [scan, scan, h n (by omega), ih fun i hi => h i (by omega)]

/-- After the last checkpoint the latest value holds. -/
theorem valueAt_eq_latest (hpast : ∀ i < h.count, (h.checkpoint i).time ≤ time) :
    h.valueAt d time = h.latest d := by
  rw [valueAt, latest]
  by_cases hcount : 0 < h.count
  · rw [if_pos hcount]
    exact scan_eq (by omega) (hpast _ (by omega)) fun j hj hlt => by omega
  · rw [if_neg hcount, show h.count = 0 by omega]
    rfl

/-! ### The search -/

theorem search_eq (hincreasing : ∀ i j, i < j → j < h.count →
      (h.checkpoint i).time < (h.checkpoint j).time) {lower upper : Nat} (hbounds : lower ≤ upper)
    (hupper : upper < h.count) (hlower : (h.checkpoint lower).time ≤ time)
    (hlater : ∀ j, upper < j → j < h.count → time < (h.checkpoint j).time) :
    search h.checkpoint time lower upper = h.valueAt d time := by
  fun_induction search h.checkpoint time lower upper with
  | case1 lower upper hlt center cp hexact =>
    refine (scan_eq (i := center) (by omega) hexact.le fun j hj hcount => ?_).symm
    exact hexact ▸ hincreasing center j hj hcount
  | case2 lower upper hlt center cp hne hearlier ih =>
    exact ih (by omega) hupper hearlier.le hlater
  | case3 lower upper hlt center cp hne hnot ih =>
    have hcenter : time < (h.checkpoint center).time :=
      lt_of_le_of_ne (Nat.le_of_not_lt hnot) (Ne.symm hne)
    refine ih (by omega) (by omega) hlower fun j hj hcount => ?_
    by_cases hjc : j = center
    · rwa [hjc]
    · exact hcenter.trans (hincreasing center j (by omega) hcount)
  | case4 lower upper hnot =>
    obtain rfl : lower = upper := by omega
    exact (scan_eq hupper hlower hlater).symm

/-! ### Recording -/

section Recording

theorem push_of_ne (hi : i ≠ h.count) : (h.push now v).checkpoint i = h.checkpoint i :=
  Function.update_of_ne hi _ _

@[simp] theorem push_count : (h.push now v).checkpoint h.count = ⟨now, v⟩ :=
  Function.update_self ..

theorem replaceLast_last : (h.replaceLast v).checkpoint (h.count - 1) =
    { h.checkpoint (h.count - 1) with value := v } := Function.update_self ..

theorem replaceLast_of_ne (hi : i ≠ h.count - 1) :
    (h.replaceLast v).checkpoint i = h.checkpoint i := Function.update_of_ne hi _ _

/-- Only the newest value is replaced. -/
@[simp] theorem replaceLast_time (i : Nat) :
    ((h.replaceLast v).checkpoint i).time = (h.checkpoint i).time := by
  by_cases hi : i = h.count - 1
  · rw [hi, replaceLast_last]
  · rw [replaceLast_of_ne hi]

@[simp] theorem latest_record : (h.record now v).latest d = v := by
  unfold record
  split
  · next hsame =>
    rw [latest, if_pos (show 0 < (h.replaceLast v).count from hsame.1)]
    exact congrArg Checkpoint.value replaceLast_last
  · rw [latest, if_pos (show 0 < (h.push now v).count from Nat.succ_pos _)]
    exact congrArg Checkpoint.value push_count

/-- What held before the time of the record stays. -/
theorem valueAt_record (hlt : time < now) : (h.record now v).valueAt d time = h.valueAt d time := by
  unfold record valueAt
  split
  · next hsame =>
    obtain ⟨hcount, hlast⟩ := hsame
    show scan (h.replaceLast v).checkpoint d time h.count = _
    obtain ⟨n, hn⟩ : ∃ n, h.count = n + 1 := ⟨h.count - 1, by omega⟩
    have hn' : h.count - 1 = n := by omega
    rw [hn'] at hlast
    rw [hn, scan, scan, replaceLast_time, hlast, if_neg (Nat.not_le_of_lt hlt),
      if_neg (Nat.not_le_of_lt hlt)]
    exact scan_congr fun i hi => replaceLast_of_ne (by omega)
  · show scan (h.push now v).checkpoint d time (h.count + 1) = _
    rw [scan, push_count, if_neg (Nat.not_le_of_lt hlt)]
    exact scan_congr fun i hi => push_of_ne (by omega)

/-- A new checkpoint follows earlier ones. -/
theorem UpTo.push (hh : h.UpTo now) (hpos : 0 < now)
    (hearlier : ∀ i < h.count, (h.checkpoint i).time < now) : (h.push now v).UpTo now where
  past i hi := by
    by_cases hlast : i = h.count
    · rw [hlast, push_count]
    · rw [push_of_ne hlast]
      exact hh.past i (Nat.lt_of_le_of_ne (Nat.le_of_lt_succ hi) hlast)
  increasing i j hij hj := by
    have hi : i ≠ h.count := by
      have : j ≤ h.count := Nat.le_of_lt_succ hj
      omega
    rw [push_of_ne hi]
    by_cases hlast : j = h.count
    · rw [hlast, push_count]
      exact hearlier i (hlast ▸ hij)
    · rw [push_of_ne hlast]
      exact hh.increasing i j hij (Nat.lt_of_le_of_ne (Nat.le_of_lt_succ hj) hlast)
  number_lt i hi := by
    by_cases hlast : i = h.count
    · rw [hlast, push_count]
      show h.count < now
      by_cases hcount : h.count = 0
      · omega
      · have hnumber := hh.number_lt (h.count - 1) (by omega)
        have hlt := hearlier (h.count - 1) (by omega)
        omega
    · rw [push_of_ne hlast]
      exact hh.number_lt i (Nat.lt_of_le_of_ne (Nat.le_of_lt_succ hi) hlast)

/-- Where the newest checkpoint is not of now, all are earlier. -/
theorem UpTo.before_now (hh : h.UpTo now)
    (hother : ¬(0 < h.count ∧ (h.checkpoint (h.count - 1)).time = now)) :
    ∀ i < h.count, (h.checkpoint i).time < now := by
  intro i hi
  have hlast : (h.checkpoint (h.count - 1)).time < now :=
    lt_of_le_of_ne (hh.past _ (by omega)) fun heq => hother ⟨by omega, heq⟩
  by_cases hil : i = h.count - 1
  · rwa [hil]
  · exact (hh.increasing i (h.count - 1) (by omega) (by omega)).trans hlast

theorem UpTo.record (hh : h.UpTo now) (hpos : 0 < now) : (h.record now v).UpTo now := by
  unfold History.record
  split
  · exact ⟨fun i hi => (replaceLast_time i).symm ▸ hh.past i hi,
      fun i j hij hj => by
        rw [replaceLast_time, replaceLast_time]
        exact hh.increasing i j hij hj,
      fun i hi => (replaceLast_time i).symm ▸ hh.number_lt i hi⟩
  · next hother => exact hh.push hpos (hh.before_now hother)

end Recording

/-! ### Machines that record -/

section Machines
variable {σ β : Type} {step : σ → β → Result σ} (history : σ → History α) (clock : β → Nat)
  (I : σ → Nat → Prop) (C : β → Prop)

/-- An invariant of the state and of the time of the last step. -/
theorem runs_timed
    (hstep : ∀ s n b t, I s n → n ≤ clock b → C b → step s b = .ok t → I t (clock b))
    {s u : σ} {bs : List β} (hs : I s n) (hbs : ∀ b ∈ bs, n ≤ clock b ∧ C b)
    (hmono : bs.Pairwise fun b c => clock b ≤ clock c) (hr : runs step s bs = .ok u) :
    ∃ m, I u m ∧ ∀ bound, n ≤ bound → (∀ b ∈ bs, clock b ≤ bound) → m ≤ bound := by
  induction bs generalizing s n with
  | nil =>
    obtain rfl : s = u := by simpa using hr
    exact ⟨n, hs, fun bound hn _ => hn⟩
  | cons b rest ih =>
    obtain ⟨t, hb, hrest⟩ := (runs_cons_eq_ok step).mp hr
    rw [List.pairwise_cons] at hmono
    obtain ⟨hn, hC⟩ := hbs b List.mem_cons_self
    obtain ⟨m, hm, hbound⟩ := ih (hstep s n b t hs hn hC hb)
      (fun c hc => ⟨hmono.1 c hc, (hbs c (List.mem_cons_of_mem b hc)).2⟩) hmono.2 hrest
    exact ⟨m, hm, fun bound _ hall =>
      hbound bound (hall b List.mem_cons_self) fun c hc => hall c (List.mem_cons_of_mem b hc)⟩

/-- Steps after a time leave alone what held then. -/
theorem valueAt_runs
    (hstep : ∀ s n b t, I s n → n ≤ clock b → C b → step s b = .ok t → I t (clock b))
    (hkeep : ∀ s n b t, I s n → n ≤ clock b → C b → step s b = .ok t → time < clock b →
      (history t).valueAt d time = (history s).valueAt d time)
    {s u : σ} {bs : List β} (hs : I s n) (hbs : ∀ b ∈ bs, n ≤ clock b ∧ C b)
    (hmono : bs.Pairwise fun b c => clock b ≤ clock c) (hlater : ∀ b ∈ bs, time < clock b)
    (hr : runs step s bs = .ok u) :
    (history u).valueAt d time = (history s).valueAt d time := by
  induction bs generalizing s n with
  | nil =>
    obtain rfl : s = u := by simpa using hr
    rfl
  | cons b rest ih =>
    obtain ⟨t, hb, hrest⟩ := (runs_cons_eq_ok step).mp hr
    rw [List.pairwise_cons] at hmono
    obtain ⟨hn, hC⟩ := hbs b List.mem_cons_self
    rw [← hkeep s n b t hs hn hC hb (hlater b List.mem_cons_self)]
    exact ih (hstep s n b t hs hn hC hb)
      (fun c hc => ⟨hmono.1 c hc, (hbs c (List.mem_cons_of_mem b hc)).2⟩) hmono.2
      (fun c hc => hlater c (List.mem_cons_of_mem b hc)) hrest

/-- Where the times of the steps do not decrease, and a step leaves alone what held before its time,
what a history tells of a time is the latest value after the last step up to it. -/
theorem recalled
    (hstep : ∀ s n b t, I s n → n ≤ clock b → C b → step s b = .ok t → I t (clock b))
    (hkeep : ∀ s n b t, I s n → n ≤ clock b → C b → step s b = .ok t → time < clock b →
      (history t).valueAt d time = (history s).valueAt d time)
    (hupTo : ∀ s n, I s n → (history s).UpTo n)
    {s u : σ} {bs : List β} (hs : I s n) (hn : n ≤ time) (hbs : ∀ b ∈ bs, n ≤ clock b ∧ C b)
    (hmono : bs.Pairwise fun b c => clock b ≤ clock c) (hr : runs step s bs = .ok u) :
    ∃ t, runs step s (bs.takeWhile fun b => clock b ≤ time) = .ok t ∧
      (history u).valueAt d time = (history t).latest d := by
  induction bs generalizing s n with
  | nil =>
    obtain rfl : s = u := by simpa using hr
    exact ⟨s, rfl, valueAt_eq_latest fun i hi => ((hupTo s n hs).past i hi).trans hn⟩
  | cons b rest ih =>
    have hmonoRest := List.pairwise_cons.mp hmono
    by_cases hle : clock b ≤ time
    · obtain ⟨r, hb, hrest⟩ := (runs_cons_eq_ok step).mp hr
      obtain ⟨hnb, hC⟩ := hbs b List.mem_cons_self
      obtain ⟨t, ht, hvalue⟩ := ih (hstep s n b r hs hnb hC hb) hle
        (fun c hc => ⟨hmonoRest.1 c hc, (hbs c (List.mem_cons_of_mem b hc)).2⟩) hmonoRest.2 hrest
      refine ⟨t, ?_, hvalue⟩
      rw [List.takeWhile_cons_of_pos (by simpa using hle)]
      exact (runs_cons_eq_ok step).mpr ⟨r, hb, ht⟩
    · refine ⟨s, by rw [List.takeWhile_cons_of_neg (by simpa using hle)]; rfl, ?_⟩
      rw [← valueAt_eq_latest fun i hi => ((hupTo s n hs).past i hi).trans hn]
      -- Every step is later than the time.
      have hlater : ∀ c ∈ b :: rest, time < clock c := by
        intro c hc
        cases List.mem_cons.mp hc with
        | inl heq => exact heq ▸ Nat.lt_of_not_le hle
        | inr hmem => exact (Nat.lt_of_not_le hle).trans_le (hmonoRest.1 c hmem)
      exact valueAt_runs history clock I C hstep hkeep hs hbs hmono hlater hr

end Machines

end History

end IndexProtocol
