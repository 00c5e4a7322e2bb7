import Mathlib.Algebra.Order.Field.Basic
import Mathlib.Order.Interval.Finset.Nat
import Mathlib.Tactic.Linarith
import Mathlib.Tactic.Ring

/-!
# Token buckets

A bucket holds at most `burst` tokens, is filled at `rate` tokens per unit of
time, and gives one token to every request that finds one. It keeps one number
and the time of the last request. `levelAt_add_taken_le` and
`exists_levelAt_eq` say what that number stands for: the level at a request is
the least of what the full bucket would have left over, had it been full at one
of the requests up to then.
-/

namespace TokenBucket

variable {K : Type*} [Field K] [LinearOrder K]

structure Bucket (K : Type*) where
  tokens : K
  refilled : K

def Bucket.level (burst rate : K) (b : Bucket K) (now : K) : K :=
  min (b.tokens + max (now - b.refilled) 0 * rate) burst

def Bucket.take (burst rate : K) (b : Bucket K) (now : K) : Bool × Bucket K :=
  if b.level burst rate now < 1 then (false, ⟨b.level burst rate now, now⟩)
  else (true, ⟨b.level burst rate now - 1, now⟩)

section

variable (burst rate start : K) (t : ℕ → K)

/-- The bucket before request `n` of those at the times `t`. It is full at the start. -/
def after : ℕ → Bucket K
  | 0 => ⟨burst, start⟩
  | n + 1 => ((after n).take burst rate (t n)).2

def granted (n : ℕ) : Bool := ((after burst rate start t n).take burst rate (t n)).1

def levelAt (n : ℕ) : K := (after burst rate start t n).level burst rate (t n)

/-- The number of requests from `i` on, and before `j`, that got a token. -/
def taken (i j : ℕ) : ℕ := ((Finset.Ico i j).filter fun n => granted burst rate start t n).card

end

variable {burst rate start : K} {t : ℕ → K} {i j n : ℕ}

theorem granted_eq_false :
    granted burst rate start t n = false ↔ levelAt burst rate start t n < 1 := by
  rw [granted, Bucket.take, ← levelAt]
  split <;> simp_all

theorem tokens_after_succ : (after burst rate start t (n + 1)).tokens =
    levelAt burst rate start t n - if granted burst rate start t n then 1 else 0 := by
  rw [after, granted, Bucket.take, ← levelAt]
  split <;> simp

theorem refilled_after_succ : (after burst rate start t (n + 1)).refilled = t n := by
  rw [after, Bucket.take]
  split <;> rfl

theorem taken_self : taken burst rate start t i i = 0 := by
  rw [taken, Finset.Ico_self, Finset.filter_empty, Finset.card_empty]

theorem taken_succ (h : i ≤ j) : taken burst rate start t i (j + 1) =
    taken burst rate start t i j + if granted burst rate start t j then 1 else 0 := by
  have hj : j ∉ (Finset.Ico i j).filter fun n => granted burst rate start t n := by simp
  rw [taken, Nat.Ico_succ_right_eq_insert_Ico h, Finset.filter_insert]
  split
  · rw [Finset.card_insert_of_notMem hj, taken]
  · rw [taken, Nat.add_zero]

theorem taken_le (i j : ℕ) : taken burst rate start t i j ≤ j - i :=
  (Finset.card_filter_le _ _).trans_eq (Nat.card_Ico i j)

theorem levelAt_le_burst : levelAt burst rate start t n ≤ burst := min_le_right _ _

variable [IsStrictOrderedRing K]

theorem levelAt_zero (hrate : 0 ≤ rate) : levelAt burst rate start t 0 = burst :=
  min_eq_right (le_add_of_nonneg_right (mul_nonneg (le_max_right _ _) hrate))

theorem levelAt_succ (ht : Monotone t) : levelAt burst rate start t (n + 1) =
    min (levelAt burst rate start t n - (if granted burst rate start t n then 1 else 0) +
      (t (n + 1) - t n) * rate) burst := by
  have helapsed : 0 ≤ t (n + 1) - t n := sub_nonneg.2 (ht n.le_succ)
  rw [levelAt, Bucket.level, tokens_after_succ, refilled_after_succ, max_eq_left helapsed]

theorem tokens_after_nonneg (hburst : 0 ≤ burst) (hrate : 0 ≤ rate) (n : ℕ) :
    0 ≤ (after burst rate start t n).tokens := by
  induction n with
  | zero => exact hburst
  | succ n ih =>
    have hlevel : 0 ≤ levelAt burst rate start t n :=
      le_min (add_nonneg ih (mul_nonneg (le_max_right _ _) hrate)) hburst
    rw [tokens_after_succ]
    cases hgranted : granted burst rate start t n with
    | false => simpa using hlevel
    | true =>
      have hone : ¬ levelAt burst rate start t n < 1 := fun hlt =>
        Bool.false_ne_true ((granted_eq_false.2 hlt).symm.trans hgranted)
      simpa using not_lt.1 hone

theorem tokens_after_le_burst (n : ℕ) : (after burst rate start t n).tokens ≤ burst := by
  cases n with
  | zero => exact le_refl _
  | succ n =>
    have hlevel : levelAt burst rate start t n ≤ burst := levelAt_le_burst
    rw [tokens_after_succ]
    split
    · linarith
    · linarith

theorem levelAt_nonneg (hburst : 0 ≤ burst) (hrate : 0 ≤ rate) (n : ℕ) :
    0 ≤ levelAt burst rate start t n :=
  le_min (add_nonneg (tokens_after_nonneg hburst hrate n)
    (mul_nonneg (le_max_right _ _) hrate)) hburst

/-- Tokens that are there and tokens that were given out since request `i` came from a full bucket
at that request or were filled in since. -/
theorem levelAt_add_taken_le (ht : Monotone t) (h : i ≤ j) :
    levelAt burst rate start t j + taken burst rate start t i j ≤ burst + (t j - t i) * rate := by
  induction j, h using Nat.le_induction with
  | base =>
    have hlevel : levelAt burst rate start t i ≤ burst := levelAt_le_burst
    rw [taken_self, sub_self, zero_mul, Nat.cast_zero, add_zero, add_zero]
    exact hlevel
  | succ j h ih =>
    have hlevel := min_le_left (levelAt burst rate start t j -
      (if granted burst rate start t j then 1 else 0) + (t (j + 1) - t j) * rate) burst
    rw [← levelAt_succ ht] at hlevel
    rw [taken_succ h, Nat.cast_add, Nat.cast_ite, Nat.cast_one, Nat.cast_zero]
    linarith

/-- No window of requests gets more than the burst and what is filled in meanwhile. -/
theorem taken_le_burst_add (hburst : 0 ≤ burst) (hrate : 0 ≤ rate) (ht : Monotone t) (h : i ≤ j) :
    (taken burst rate start t i (j + 1) : K) ≤ burst + (t j - t i) * rate := by
  have hbound : levelAt burst rate start t j + taken burst rate start t i j ≤
      burst + (t j - t i) * rate := levelAt_add_taken_le ht h
  have hnonneg : 0 ≤ levelAt burst rate start t j := levelAt_nonneg hburst hrate j
  rw [taken_succ h, Nat.cast_add]
  cases hgranted : granted burst rate start t j with
  | false =>
    simp only [Bool.false_eq_true, if_false, Nat.cast_zero, add_zero]
    linarith
  | true =>
    have hone : ¬ levelAt burst rate start t j < 1 := fun hlt =>
      Bool.false_ne_true ((granted_eq_false.2 hlt).symm.trans hgranted)
    simp only [if_true, Nat.cast_one]
    linarith

theorem exists_levelAt_eq (hrate : 0 ≤ rate) (ht : Monotone t) (j : ℕ) :
    ∃ i ≤ j, levelAt burst rate start t j =
      burst - taken burst rate start t i j + (t j - t i) * rate := by
  induction j with
  | zero =>
    refine ⟨0, le_refl _, ?_⟩
    rw [levelAt_zero hrate, taken_self, Nat.cast_zero, sub_self, zero_mul, sub_zero, add_zero]
  | succ j ih =>
    obtain ⟨i, hi, hlevel⟩ := ih
    rw [levelAt_succ ht]
    rcases min_choice (levelAt burst rate start t j -
      (if granted burst rate start t j then 1 else 0) + (t (j + 1) - t j) * rate) burst with
      hmin | hmin
    · refine ⟨i, Nat.le_succ_of_le hi, ?_⟩
      rw [hmin, hlevel, taken_succ hi, Nat.cast_add, Nat.cast_ite, Nat.cast_one, Nat.cast_zero]
      ring
    · refine ⟨j + 1, le_refl _, ?_⟩
      rw [hmin, taken_self, Nat.cast_zero, sub_self, zero_mul, sub_zero, add_zero]

/-- A request is turned away only if the requests since an earlier one took what there was. -/
theorem exists_lt_taken (hburst : 1 ≤ burst) (hrate : 0 ≤ rate) (ht : Monotone t)
    (h : granted burst rate start t j = false) :
    ∃ i < j, burst - 1 + (t j - t i) * rate < taken burst rate start t i j := by
  have hempty := granted_eq_false.1 h
  obtain ⟨i, hi, hlevel⟩ : ∃ i ≤ j, levelAt burst rate start t j =
      burst - taken burst rate start t i j + (t j - t i) * rate := exists_levelAt_eq hrate ht j
  rcases Nat.lt_or_eq_of_le hi with hlt | rfl
  · refine ⟨i, hlt, ?_⟩
    linarith
  · rw [taken_self, Nat.cast_zero, sub_self, zero_mul, sub_zero, add_zero] at hlevel
    exact absurd (hlevel ▸ hempty) (not_lt.2 hburst)

/-- Requests between which a token is filled in are never turned away. -/
theorem granted_of_spaced (hburst : 1 ≤ burst) (hrate : 0 ≤ rate)
    (ht : Monotone t) (hspaced : ∀ n, 1 ≤ (t (n + 1) - t n) * rate) (n : ℕ) :
    granted burst rate start t n = true := by
  have hfilled : ∀ i j, i ≤ j → ((j - i : ℕ) : K) ≤ (t j - t i) * rate := by
    intro i j h
    induction j, h using Nat.le_induction with
    | base => rw [Nat.sub_self, Nat.cast_zero, sub_self, zero_mul]
    | succ j h ih =>
      have hone := hspaced j
      rw [Nat.succ_sub h, Nat.cast_succ]
      linarith
  refine Bool.of_not_eq_false fun hdenied => ?_
  obtain ⟨i, hi, hmany⟩ := exists_lt_taken hburst hrate ht hdenied
  have htaken : (taken burst rate start t i n : K) ≤ ((n - i : ℕ) : K) :=
    Nat.cast_le.2 (taken_le i n)
  have hgap := hfilled i n hi.le
  linarith

end TokenBucket
