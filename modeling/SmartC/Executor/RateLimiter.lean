import Mathlib.Algebra.Order.Interval.Finset.SuccPred
import Mathlib.Algebra.Order.Ring.Rat
import Mathlib.Data.Nat.SuccPred
import SmartC.TokenBucket

/-!
# The token bucket of a WebSocket

`ClientMessageRateLimiter` of `http.rs`, over exact rational seconds and
tokens where the code uses `Instant` and `f64`.
-/

namespace SmartC.Executor

open TokenBucket (Bucket)

def clientMessageBurst : ℚ := 32
def clientMessagesPerSecond : ℚ := 16

structure ClientMessageRateLimiter where
  tokens : ℚ
  lastRefill : ℚ

namespace ClientMessageRateLimiter

def new (now : ℚ) : ClientMessageRateLimiter := ⟨clientMessageBurst, now⟩

/-- Refill up to `now`, then take one token if there is one. -/
def allowAt (l : ClientMessageRateLimiter) (now : ℚ) : Bool × ClientMessageRateLimiter :=
  let elapsed := max (now - l.lastRefill) 0
  let tokens := min (l.tokens + elapsed * clientMessagesPerSecond) clientMessageBurst
  if tokens < 1 then (false, ⟨tokens, now⟩) else (true, ⟨tokens - 1, now⟩)

/-! ### Sequences of calls -/

section

variable (created : ℚ) (t : ℕ → ℚ)

/-- A limiter made at time `created`, before call `n` of those at the times `t`. -/
def before : ℕ → ClientMessageRateLimiter
  | 0 => .new created
  | n + 1 => ((before n).allowAt (t n)).2

def allows (n : ℕ) : Bool := ((before created t n).allowAt (t n)).1

def accepted (calls : Finset ℕ) : ℕ := (calls.filter fun n => allows created t n).card

end

def bucket (l : ClientMessageRateLimiter) : Bucket ℚ := ⟨l.tokens, l.lastRefill⟩

theorem allowAt_eq (l : ClientMessageRateLimiter) (now : ℚ) :
    l.bucket.take clientMessageBurst clientMessagesPerSecond now =
      ((l.allowAt now).1, (l.allowAt now).2.bucket) := by
  by_cases hempty : l.bucket.level clientMessageBurst clientMessagesPerSecond now < 1
  · have hallow : l.allowAt now =
        (false, ⟨l.bucket.level clientMessageBurst clientMessagesPerSecond now, now⟩) :=
      if_pos hempty
    rw [Bucket.take, if_pos hempty, hallow]
    rfl
  · have hallow : l.allowAt now =
        (true, ⟨l.bucket.level clientMessageBurst clientMessagesPerSecond now - 1, now⟩) :=
      if_neg hempty
    rw [Bucket.take, if_neg hempty, hallow]
    rfl

variable {created : ℚ} {t : ℕ → ℚ}

theorem bucket_before (n : ℕ) : (before created t n).bucket =
    TokenBucket.after clientMessageBurst clientMessagesPerSecond created t n := by
  induction n with
  | zero => rfl
  | succ n ih => rw [before, TokenBucket.after, ← ih, allowAt_eq]

theorem allows_eq (n : ℕ) : allows created t n =
    TokenBucket.granted clientMessageBurst clientMessagesPerSecond created t n := by
  rw [allows, TokenBucket.granted, ← bucket_before, allowAt_eq]

theorem accepted_eq (i j : ℕ) : accepted created t (Finset.Ico i j) =
    TokenBucket.taken clientMessageBurst clientMessagesPerSecond created t i j := by
  simp only [accepted, TokenBucket.taken, allows_eq]

/-- In every window of calls the limiter accepts at most the burst and what is filled in meanwhile;
it never has fewer than no tokens nor more than the burst; it rejects a call only if the calls
since an earlier one took all there was; and it rejects none of calls a sixteenth of a second
apart. -/
theorem limiter_is_token_bucket (created : ℚ) (t : ℕ → ℚ) (ht : Monotone t) :
    (∀ i j, i ≤ j → (accepted created t (Finset.Icc i j) : ℚ) ≤ 32 + 16 * (t j - t i)) ∧
    (∀ n, 0 ≤ (before created t n).tokens ∧ (before created t n).tokens ≤ 32) ∧
    (∀ j, allows created t j = false →
      ∃ i < j, 31 + 16 * (t j - t i) < accepted created t (Finset.Ico i j)) ∧
    ((∀ n, t n + 1 / 16 ≤ t (n + 1)) → ∀ n, allows created t n = true) := by
  have hburst : (1 : ℚ) ≤ clientMessageBurst := by decide
  have hrate : (0 : ℚ) ≤ clientMessagesPerSecond := by decide
  have hnonneg : (0 : ℚ) ≤ clientMessageBurst := by decide
  refine ⟨fun i j hij => ?_, fun n => ⟨?_, ?_⟩, fun j hj => ?_, fun hspaced n => ?_⟩
  · have hwindow : (TokenBucket.taken clientMessageBurst clientMessagesPerSecond created t i (j + 1)
        : ℚ) ≤ clientMessageBurst + (t j - t i) * clientMessagesPerSecond :=
      TokenBucket.taken_le_burst_add hnonneg hrate ht hij
    rw [← Finset.Ico_add_one_right_eq_Icc, accepted_eq, mul_comm]
    exact hwindow
  · have htokens : 0 ≤ (TokenBucket.after clientMessageBurst clientMessagesPerSecond created t
        n).tokens := TokenBucket.tokens_after_nonneg hnonneg hrate n
    rwa [← bucket_before] at htokens
  · have htokens : (TokenBucket.after clientMessageBurst clientMessagesPerSecond created t
        n).tokens ≤ clientMessageBurst := TokenBucket.tokens_after_le_burst n
    rwa [← bucket_before] at htokens
  · rw [allows_eq] at hj
    obtain ⟨i, hi, hmany⟩ := TokenBucket.exists_lt_taken hburst hrate ht hj
    rw [← accepted_eq] at hmany
    refine ⟨i, hi, lt_of_eq_of_lt ?_ hmany⟩
    simp only [clientMessageBurst, clientMessagesPerSecond]
    ring
  · rw [allows_eq]
    refine TokenBucket.granted_of_spaced hburst hrate ht (fun k => ?_) n
    have hgap := hspaced k
    simp only [clientMessagesPerSecond]
    linarith

/-- The 33rd of a flood of messages at one moment is rejected. -/
theorem flood_is_stopped_after_the_burst :
    allows 0 (fun _ => 0) 32 = false ∧
      ∃ i < 32, 31 + 16 * ((0 : ℚ) - 0) < accepted 0 (fun _ => 0) (Finset.Ico i 32) := by
  have hrejected : allows 0 (fun _ => 0) 32 = false := by decide +kernel
  exact ⟨hrejected, (limiter_is_token_bucket 0 (fun _ => 0) monotone_const).2.2.1 32 hrejected⟩

end ClientMessageRateLimiter

end SmartC.Executor
