import Mathlib.Algebra.Order.Group.Defs
import Mathlib.Data.List.Count

/-!
# Fixed windows

A limiter that grants at most `L` times in a window and begins a new window,
with a grant, only when the last one is over. Windows do not follow the clock,
so a span as long as a window may touch two of them. It sees the beginning of
one of the two at most, so it sees less than twice the limit
(`Windowed.sliding`).
-/

namespace FixedWindow

section

variable {α : Type*} [LinearOrder α] {a b c : α} {times times' : List α}

/-- How many of the times are in a span, its end excluded. -/
def within (a b : α) (times : List α) : ℕ := times.countP fun t => a ≤ t ∧ t < b

def since (a : α) (times : List α) : ℕ := times.countP fun t => a ≤ t

theorem within_append : within a b (times ++ times') = within a b times + within a b times' :=
  List.countP_append ..

theorem since_append : since a (times ++ times') = since a times + since a times' :=
  List.countP_append ..

theorem within_le_since : within a b times ≤ since a times :=
  List.countP_mono_left fun t _ h => by
    simp only [decide_eq_true_eq] at h ⊢
    exact h.1

theorem within_sublist (h : times.Sublist times') : within a b times ≤ within a b times' :=
  h.countP_le

theorem within_pos (hb : b ∈ times) (hle : a ≤ b) (hlt : b < c) : 0 < within a c times :=
  List.countP_pos_iff.2 ⟨b, hb, by simpa using ⟨hle, hlt⟩⟩

theorem since_eq_add (times : List α) (h : a ≤ b) :
    since a times = within a b times + since b times := by
  induction times with
  | nil => rfl
  | cons t times ih =>
    simp only [within, since, List.countP_cons, decide_eq_true_eq] at ih ⊢
    grind

theorem forall_lt_append (h : ∀ t ∈ times, t < b) (ha : a < b) : ∀ t ∈ times ++ [a], t < b :=
  fun _ ht => (List.mem_append.1 ht).elim (h _) fun hnew => List.mem_singleton.1 hnew ▸ ha

theorem within_le_add (times : List α) (a b c : α) :
    within a c times ≤ within a b times + since b times := by
  induction times with
  | nil => exact Nat.zero_le _
  | cons t times ih =>
    simp only [within, since, List.countP_cons, decide_eq_true_eq] at ih ⊢
    grind

end

section

variable {α : Type*} [AddCommGroup α] [LinearOrder α]

/-- The grants so far, of which the last window was opened at `opened`. -/
structure Windowed (width : α) (limit : ℕ) (opened : α) (grants : List α) : Prop where
  opener : grants = [] ∨ opened ∈ grants
  current : since opened grants ≤ limit
  recent : ∀ t ∈ grants, t < opened + width
  before : ∀ a, opened < a + width → within a opened grants ≤ limit - 1
  sliding : ∀ a, within a (a + width) grants ≤ 2 * limit - 1

variable {width opened t : α} {limit : ℕ} {grants : List α}

theorem Windowed.nil (opened : α) : Windowed width limit opened [] :=
  ⟨.inl rfl, Nat.zero_le _, by simp, fun _ _ => Nat.zero_le _, fun _ => Nat.zero_le _⟩

/-- Spans that end before the window see no more; the others are cut at its beginning. -/
theorem Windowed.sliding_append (h : ∀ a, within a (a + width) grants ≤ 2 * limit - 1)
    (hopened : opened ≤ t) (hcurrent : since opened (grants ++ [t]) ≤ limit) (hlimit : 0 < limit)
    (hbefore : ∀ a, opened < a + width → within a opened (grants ++ [t]) ≤ limit - 1) (a : α) :
    within a (a + width) (grants ++ [t]) ≤ 2 * limit - 1 := by
  rcases le_or_gt (a + width) opened with hpast | hmeets
  · have hnone : within a (a + width) [t] = 0 := by simp [within, hpast.trans hopened]
    rw [within_append, hnone]
    exact h a
  · have hcut := within_le_add (grants ++ [t]) a opened (a + width)
    have hold := hbefore a hmeets
    omega

theorem Windowed.grant (h : Windowed width limit opened grants) (hopened : opened ≤ t)
    (ht : t < opened + width) (hopener : opened ∈ grants) (hroom : since opened grants < limit) :
    Windowed width limit opened (grants ++ [t]) := by
  have hcurrent : since opened (grants ++ [t]) ≤ limit := by
    rw [since_append]
    have hone : since opened [t] ≤ 1 := List.countP_le_length
    omega
  have hbefore : ∀ a, opened < a + width → within a opened (grants ++ [t]) ≤ limit - 1 := by
    intro a ha
    have hnone : within a opened [t] = 0 := by simp [within, not_lt.2 hopened]
    rw [within_append, hnone]
    exact h.before a ha
  exact ⟨.inr (List.mem_append_left _ hopener), hcurrent,
    forall_lt_append h.recent ht, hbefore,
    sliding_append h.sliding hopened hcurrent (Nat.zero_lt_of_lt hroom) hbefore⟩

theorem Windowed.since_open (h : Windowed width limit opened grants) (ht : opened + width ≤ t) :
    since t (grants ++ [t]) = 1 := by
  have hnone : since t grants = 0 := by
    refine List.countP_eq_zero.2 fun t' ht' => ?_
    simpa using (h.recent t' ht').trans_le ht
  rw [since_append, hnone]
  simp [since]

theorem Windowed.open [IsOrderedAddMonoid α] (h : Windowed width limit opened grants)
    (hwidth : 0 < width) (hlimit : 0 < limit) (ht : opened + width ≤ t) :
    Windowed width limit t (grants ++ [t]) := by
  have hcurrent : since t (grants ++ [t]) ≤ limit := (h.since_open ht).trans_le hlimit
  have hbefore : ∀ a, t < a + width → within a t (grants ++ [t]) ≤ limit - 1 := by
    intro a ha
    have hnone : within a t [t] = 0 := by simp [within]
    rw [within_append, hnone]
    rcases h.opener with rfl | hopener
    · exact Nat.zero_le _
    · -- The span begins after the last window did, and so it misses a grant of that window.
      have hlater : opened < a := lt_of_add_lt_add_right (ht.trans_lt ha)
      have hcut := since_eq_add grants hlater.le
      have hpos := within_pos hopener le_rfl hlater
      have hcount := h.current
      have hspan : within a t grants ≤ since a grants := within_le_since
      omega
  refine ⟨.inr (List.mem_append_right _ (List.mem_singleton_self t)), hcurrent,
    forall_lt_append (fun t' ht' => ?_) (lt_add_of_pos_right t hwidth), hbefore,
    sliding_append h.sliding le_rfl hcurrent hlimit hbefore⟩
  exact (h.recent t' ht').trans (ht.trans_lt (lt_add_of_pos_right t hwidth))

end

end FixedWindow
