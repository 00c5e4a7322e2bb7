import Mathlib.Data.List.Nodup
import Mathlib.Logic.Function.Basic

/-!
# Timer tables

A timer is armed under a handle that is drawn in order and never drawn again.
Owners record the handle of the timer that they armed last, and keep it when
that timer has been cleared or has fired. `Timers.Kept` says that the table is
what the records of the owners make of it.
-/

namespace SmartC

/-- `callback` names the owner that the timer acts for; a placeholder acts for none. -/
structure Timer (κ : Type*) where
  handle : Nat
  callback : Option κ
  deadline : Nat
  deriving DecidableEq, Repr

structure Timers (κ : Type*) where
  armed : List (Timer κ)
  nextHandle : Nat

namespace Timers

variable {κ : Type*}

def empty : Timers κ := ⟨[], 0⟩

def set (t : Timers κ) (callback : Option κ) (deadline : Nat) : Timers κ × Nat :=
  (⟨t.armed ++ [⟨t.nextHandle, callback, deadline⟩], t.nextHandle + 1⟩, t.nextHandle)

def clear (t : Timers κ) (handle : Nat) : Timers κ :=
  { t with armed := t.armed.filter fun timer => timer.handle ≠ handle }

theorem mem_clear {t : Timers κ} {handle : Nat} {timer : Timer κ} :
    timer ∈ (t.clear handle).armed ↔ timer ∈ t.armed ∧ timer.handle ≠ handle := by
  simp [clear]

theorem clear_clear (t : Timers κ) (handle handle' : Nat) :
    (t.clear handle).clear handle' = (t.clear handle').clear handle := by
  simp only [clear, List.filter_filter, Bool.and_comm]

theorem clear_idem (t : Timers κ) (handle : Nat) :
    (t.clear handle).clear handle = t.clear handle := by
  simp [clear, List.filter_filter]

theorem filter_fresh {t : Timers κ} (hfresh : ∀ timer ∈ t.armed, timer.handle < t.nextHandle)
    {handle : Nat} (h : t.nextHandle ≤ handle) :
    t.armed.filter (fun timer => timer.handle ≠ handle) = t.armed :=
  List.filter_eq_self.2 fun timer hmem =>
    decide_eq_true (Nat.ne_of_lt (Nat.lt_of_lt_of_le (hfresh timer hmem) h))

/-- The armed timers are those of the owners that are `on`, each under the handle that its owner
has recorded and with a deadline that suits it. -/
structure Kept (t : Timers κ) (handle : κ → Option Nat) (on : κ → Prop) (due : κ → Nat → Prop) :
    Prop where
  nodup : (t.armed.map Timer.handle).Nodup
  owner : ∀ {timer}, timer ∈ t.armed → ∃ k, timer.callback = some k ∧ on k ∧
    handle k = some timer.handle ∧ due k timer.deadline
  armed : ∀ {k}, on k → ∃ timer ∈ t.armed, handle k = some timer.handle
  injective : ∀ {k k' h}, handle k = some h → handle k' = some h → k = k'
  bounded : ∀ {k h}, handle k = some h → h < t.nextHandle

namespace Kept

variable {t : Timers κ} {handle handle' : κ → Option Nat} {on on' : κ → Prop}
  {due due' : κ → Nat → Prop} {k : κ}

theorem empty : Kept (empty : Timers κ) (fun _ => none) (fun _ => False) due where
  nodup := List.nodup_nil
  owner h := absurd h List.not_mem_nil
  armed h := h.elim
  injective h := by cases h
  bounded h := by cases h

theorem fresh (h : t.Kept handle on due) : ∀ timer ∈ t.armed, timer.handle < t.nextHandle := by
  intro timer hmem
  obtain ⟨k, -, -, hhandle, -⟩ := h.owner hmem
  exact h.bounded hhandle

theorem skip (h : t.Kept handle on due) {n : Nat} (hn : t.nextHandle ≤ n) :
    Kept ⟨t.armed, n⟩ handle on due :=
  { h with bounded := fun hhandle => Nat.lt_of_lt_of_le (h.bounded hhandle) hn }

theorem adjust (h : t.Kept handle on due) (hon : ∀ k, on' k ↔ on k)
    (hkeep : ∀ k, on k → handle' k = handle k)
    (hhandle : ∀ k n, handle' k = some n → handle k = some n)
    (hdue : ∀ k d, due k d → due' k d) : t.Kept handle' on' due' where
  nodup := h.nodup
  owner hmem := by
    obtain ⟨k, hcallback, hk, hhandle, hd⟩ := h.owner hmem
    exact ⟨k, hcallback, (hon k).2 hk, (hkeep k hk).trans hhandle, hdue _ _ hd⟩
  armed {k} hk := by
    obtain ⟨timer, hmem, hhandle⟩ := h.armed ((hon k).1 hk)
    exact ⟨timer, hmem, (hkeep k ((hon k).1 hk)).trans hhandle⟩
  injective hk hk' := h.injective (hhandle _ _ hk) (hhandle _ _ hk')
  bounded hk := h.bounded (hhandle _ _ hk)

theorem disarm (h : t.Kept handle on due) {n : Nat} (hk : handle k = some n) :
    (t.clear n).Kept handle (fun k' => on k' ∧ k' ≠ k) due where
  nodup := h.nodup.sublist (List.filter_sublist.map _)
  owner hmem := by
    obtain ⟨hmem, hne⟩ := mem_clear.1 hmem
    obtain ⟨k', hcallback, hon, hhandle, hd⟩ := h.owner hmem
    refine ⟨k', hcallback, ⟨hon, ?_⟩, hhandle, hd⟩
    rintro rfl
    exact hne (Option.some.inj (hhandle.symm.trans hk))
  armed {k'} hon := by
    obtain ⟨timer, hmem, hhandle⟩ := h.armed hon.1
    refine ⟨timer, mem_clear.2 ⟨hmem, ?_⟩, hhandle⟩
    rintro rfl
    exact hon.2 (h.injective hhandle hk)
  injective := h.injective
  bounded := h.bounded

theorem arm [DecidableEq κ] (h : t.Kept handle on due) (hk : ¬ on k) {d : Nat} (hd : due k d) :
    (t.set (some k) d).1.Kept (Function.update handle k (some t.nextHandle))
      (fun k' => on k' ∨ k' = k) due := by
  have hother : ∀ {k'}, on k' → Function.update handle k (some t.nextHandle) k' = handle k' :=
    fun {k'} hon => Function.update_of_ne (fun heq : k' = k => hk (heq ▸ hon)) _ _
  constructor
  case nodup =>
    rw [set, List.map_append, List.map_singleton]
    refine List.nodup_append.2 ⟨h.nodup, List.nodup_singleton _, ?_⟩
    rintro n hn n' hn' rfl
    obtain ⟨timer, hmem, rfl⟩ := List.mem_map.1 hn
    exact Nat.ne_of_lt (h.fresh timer hmem) (List.mem_singleton.1 hn')
  case owner =>
    intro timer hmem
    rcases List.mem_append.1 hmem with hmem | hmem
    · obtain ⟨k', hcallback, hon, hhandle, hd'⟩ := h.owner hmem
      exact ⟨k', hcallback, .inl hon, (hother hon).trans hhandle, hd'⟩
    · obtain rfl := List.mem_singleton.1 hmem
      exact ⟨k, rfl, .inr rfl, Function.update_self .., hd⟩
  case armed =>
    rintro k' (hon | rfl)
    · obtain ⟨timer, hmem, hhandle⟩ := h.armed hon
      exact ⟨timer, List.mem_append_left _ hmem, (hother hon).trans hhandle⟩
    · exact ⟨_, List.mem_append_right _ (List.mem_singleton_self _), Function.update_self ..⟩
  case injective =>
    intro k₁ k₂ n h₁ h₂
    rw [Function.update_apply] at h₁ h₂
    split at h₁ <;> split at h₂
    · next heq₁ heq₂ => exact heq₁.trans heq₂.symm
    · cases h₁
      exact absurd (h.bounded h₂) (Nat.lt_irrefl _)
    · cases h₂
      exact absurd (h.bounded h₁) (Nat.lt_irrefl _)
    · exact h.injective h₁ h₂
  case bounded =>
    intro k' n hk'
    rw [Function.update_apply] at hk'
    split at hk'
    · cases hk'
      exact Nat.lt_succ_self _
    · exact Nat.lt_succ_of_lt (h.bounded hk')

theorem callback (h : t.Kept handle on due) {timer : Timer κ} (hmem : timer ∈ t.armed)
    (hcallback : timer.callback = some k) :
    on k ∧ handle k = some timer.handle ∧ due k timer.deadline := by
  obtain ⟨k', hcallback', hk'⟩ := h.owner hmem
  cases hcallback.symm.trans hcallback'
  exact hk'

theorem filter_on [DecidableEq κ] (h : t.Kept handle on due) (hk : on k) :
    ∃ timer, t.armed.filter (fun timer => timer.callback = some k) = [timer] ∧
      handle k = some timer.handle ∧ due k timer.deadline := by
  obtain ⟨timer, hmem, hhandle⟩ := h.armed hk
  obtain ⟨k', hcallback, -, hhandle', hd⟩ := h.owner hmem
  obtain rfl := h.injective hhandle hhandle'
  refine ⟨timer, ?_, hhandle, hd⟩
  have hnodup : (t.armed.filter fun timer => timer.callback = some k).Nodup :=
    (List.Nodup.of_map _ h.nodup).filter _
  have hall : ∀ timer' ∈ t.armed.filter (fun timer => timer.callback = some k), timer' = timer := by
    intro timer' hmem'
    obtain ⟨hmem', hcallback'⟩ := List.mem_filter.1 hmem'
    have hsame := (h.callback hmem' (of_decide_eq_true hcallback')).2.1
    exact List.inj_on_of_nodup_map h.nodup hmem' hmem
      (Option.some.inj (hsame.symm.trans hhandle))
  have hin : timer ∈ t.armed.filter fun timer => timer.callback = some k :=
    List.mem_filter.2 ⟨hmem, decide_eq_true hcallback⟩
  exact List.perm_singleton.1 ((List.perm_ext_iff_of_nodup hnodup (List.nodup_singleton _)).2
    fun timer' => ⟨fun hmem' => List.mem_singleton.2 (hall timer' hmem'),
      fun hmem' => List.mem_singleton.1 hmem' ▸ hin⟩)

theorem filter_off [DecidableEq κ] (h : t.Kept handle on due) (hk : ¬ on k) :
    t.armed.filter (fun timer => timer.callback = some k) = [] :=
  List.filter_eq_nil_iff.2 fun _ hmem hcallback =>
    hk (h.callback hmem (of_decide_eq_true hcallback)).1

end Kept

end Timers

end SmartC
