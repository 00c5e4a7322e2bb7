import Mathlib.Data.Rat.Floor
import SmartC.Lsp.Json
import SmartC.OrderedMap
import SmartC.Transition

/-!
# The rate limits of the web front end

A store of fixed windows, from which expired entries are removed now and then.
`Reference` is the limiter that it stands for: it removes nothing and counts
the entries that are still alive. Times and windows are in milliseconds; they
and the limits are finite numbers, without rounding.
-/

namespace SmartC.Web

open Lsp

structure RateLimitRule where
  key : JsString
  limit : ℚ
  windowMs : ℚ
  deriving DecidableEq

/-- `remaining` of no rule at all is infinite. -/
structure RateLimitResult where
  allowed : Bool
  remaining : Option ℚ
  retryAfterSeconds : ℤ
  deriving DecidableEq

structure RateLimitEntry where
  count : ℕ
  resetAt : ℚ
  deriving DecidableEq

def MAX_RATE_LIMIT_ENTRIES : ℕ := 10000

def CLEANUP_INTERVAL : ℕ := 256

abbrev Entries := OrderedMap JsString RateLimitEntry

structure RateLimitStore where
  store : Entries
  operationCount : ℕ

def RateLimitStore.new : RateLimitStore := ⟨.empty, 0⟩

def RateLimitEntry.alive (now : ℚ) (entry : RateLimitEntry) : Bool := now < entry.resetAt

/-- The entries that are alive, which are those that a cleanup leaves. -/
def live (now : ℚ) (store : Entries) : Entries := store.filter (·.alive now)

def cleanupExpiredEntries (store : Entries) (now : ℚ) : Entries := live now store

/-- `Math.max(1, Math.ceil(ms / 1_000))` -/
def waitSeconds (ms : ℚ) : ℤ := max 1 ⌈ms / 1000⌉

def answer (rule : RateLimitRule) (now : ℚ) (entry : RateLimitEntry) : RateLimitResult :=
  let allowed : Bool := (entry.count : ℚ) ≤ rule.limit
  ⟨allowed, some (max 0 (rule.limit - entry.count)),
    if allowed then 0 else waitSeconds (entry.resetAt - now)⟩

def refusal (rule : RateLimitRule) : RateLimitResult := ⟨false, some 0, waitSeconds rule.windowMs⟩

/-- The entry of a key, counted up; an expired one is begun again. -/
def countUp (rule : RateLimitRule) (now : ℚ) (existing : Option RateLimitEntry) : RateLimitEntry :=
  match existing with
  | none => ⟨1, now + rule.windowMs⟩
  | some entry =>
    if entry.resetAt ≤ now then ⟨1, now + rule.windowMs⟩ else ⟨entry.count + 1, entry.resetAt⟩

/-- The store after the cleanup that a call begins with. -/
def RateLimitStore.swept (s : RateLimitStore) (operationCount : ℕ) (now : ℚ) : Entries :=
  if operationCount % CLEANUP_INTERVAL = 0 ∨ MAX_RATE_LIMIT_ENTRIES ≤ s.store.size then
    cleanupExpiredEntries s.store now
  else s.store

def consumeRateLimit (s : RateLimitStore) (rule : RateLimitRule) (now : ℚ) :
    RateLimitResult × RateLimitStore :=
  let operationCount := s.operationCount + 1
  let store := s.swept operationCount now
  if store.has rule.key = false ∧ MAX_RATE_LIMIT_ENTRIES ≤ store.size then
    (refusal rule, ⟨store, operationCount⟩)
  else
    let entry := countUp rule now (store.get rule.key)
    (answer rule now entry, ⟨store.set rule.key entry, operationCount⟩)

def consumeEach (s : RateLimitStore) (now : ℚ) :
    List RateLimitRule → List RateLimitResult × RateLimitStore
  | [] => ([], s)
  | rule :: rules =>
    let (result, s) := consumeRateLimit s rule now
    let (results, s) := consumeEach s now rules
    (result :: results, s)

def consumeRateLimits (s : RateLimitStore) (rules : List RateLimitRule) (now : ℚ) :
    RateLimitResult × RateLimitStore :=
  let (results, s) := consumeEach s now rules
  let denied := results.filter (!·.allowed)
  match (denied.map (·.retryAfterSeconds)).max? with
  | some retryAfterSeconds => (⟨false, some 0, retryAfterSeconds⟩, s)
  | none => (⟨true, (results.filterMap (·.remaining)).min?, 0⟩, s)

/-! ### The reference -/

abbrev Reference := Entries

def Reference.consume (r : Reference) (rule : RateLimitRule) (now : ℚ) :
    RateLimitResult × Reference :=
  let existing := (live now r).get rule.key
  if existing = none ∧ MAX_RATE_LIMIT_ENTRIES ≤ (live now r).size then (refusal rule, r)
  else (answer rule now (countUp rule now existing), r.set rule.key (countUp rule now existing))

def results {σ : Type} (consume : σ → RateLimitRule → ℚ → RateLimitResult × σ) (s : σ) :
    List (RateLimitRule × ℚ) → List RateLimitResult × σ
  | [] => ([], s)
  | (rule, now) :: calls =>
    let (result, s) := consume s rule now
    let (more, s) := results consume s calls
    (result :: more, s)

variable {rule : RateLimitRule} {now now' : ℚ} {s : RateLimitStore} {a a' b b' : Entries}
  {result result' : RateLimitResult} {k : JsString}

/-! ### What is alive -/

theorem get_live : (live now a).get k = (a.get k).filter (·.alive now) := a.get_filter _ k

theorem get_live_later (h : now ≤ now') :
    (live now' a).get k = ((live now a).get k).filter (·.alive now') := by
  rw [get_live, get_live, Option.filter_filter]
  refine congrArg (a.get k).filter (funext fun entry => ?_)
  rw [Bool.eq_iff_iff, Bool.and_eq_true]
  simp only [RateLimitEntry.alive, decide_eq_true_eq]
  exact ⟨fun hlater => ⟨h.trans_lt hlater, hlater⟩, And.right⟩

theorem get_live_set (entry : RateLimitEntry) : (live now (a.set rule.key entry)).get k =
    if k = rule.key then (some entry).filter (·.alive now) else (live now a).get k := by
  rw [get_live, get_live, OrderedMap.get_set]
  split <;> rfl

/-- Two stores whose entries are the same from a time on. -/
def Agree (now : ℚ) (a b : Entries) : Prop := ∀ k, (live now a).get k = (live now b).get k

theorem Agree.later (h : Agree now a b) (hle : now ≤ now') : Agree now' a b := by
  intro k
  rw [get_live_later hle, get_live_later hle, h k]

theorem agree_live : Agree now (live now a) a := by
  intro k
  rw [get_live_later (a := a) (le_refl now)]
  exact get_live

theorem Agree.trans {c : Entries} (h : Agree now a b) (h' : Agree now b c) : Agree now a c :=
  fun k => (h k).trans (h' k)

theorem Agree.size (h : Agree now a b) : (live now a).size = (live now b).size :=
  OrderedMap.size_congr h

theorem Agree.set (h : Agree now a b) (entry : RateLimitEntry) :
    Agree now (a.set rule.key entry) (b.set rule.key entry) := by
  intro k
  rw [get_live_set, get_live_set, h k]

/-- What a call does, as far as it can be told from what is alive. -/
inductive Consumed (rule : RateLimitRule) (now : ℚ) (a a' : Entries) : RateLimitResult → Prop
  | refused (absent : (live now a).get rule.key = none)
      (full : MAX_RATE_LIMIT_ENTRIES ≤ (live now a).size) (same : Agree now a' a) :
      Consumed rule now a a' (refusal rule)
  | counted (room : (live now a).get rule.key ≠ none ∨ (live now a).size < MAX_RATE_LIMIT_ENTRIES)
      (next : Agree now a' (a.set rule.key (countUp rule now ((live now a).get rule.key)))) :
      Consumed rule now a a' (answer rule now (countUp rule now ((live now a).get rule.key)))

theorem Consumed.agree (h : Consumed rule now a a' result) (h' : Consumed rule now b b' result')
    (hagree : Agree now a b) : result = result' ∧ Agree now a' b' := by
  have hget := hagree rule.key
  have hsize := hagree.size
  cases h with
  | refused absent full same =>
    cases h' with
    | refused absent' full' same' =>
      exact ⟨rfl, (same.trans hagree).trans fun k => (same' k).symm⟩
    | counted room next =>
      rw [← hget, ← hsize] at room
      exact absurd room (by simp [absent, full])
  | counted room next =>
    cases h' with
    | refused absent full same =>
      rw [← hget] at absent
      rw [← hsize] at full
      exact absurd room (by simp [absent, full])
    | counted room' next' =>
      rw [hget] at next ⊢
      exact ⟨rfl, (next.trans (hagree.set _)).trans fun k => (next' k).symm⟩

theorem filter_alive (entry : RateLimitEntry) : (some entry).filter (·.alive now) =
    if entry.resetAt ≤ now then none else some entry := by
  rw [Option.filter_some]
  by_cases hdead : entry.resetAt ≤ now
  · simp [RateLimitEntry.alive, hdead]
  · simp [RateLimitEntry.alive, hdead]

theorem countUp_live : countUp rule now ((live now a).get rule.key) =
    countUp rule now (a.get rule.key) := by
  rw [get_live]
  cases a.get rule.key with
  | none => rfl
  | some entry =>
    rw [filter_alive]
    split
    · next hdead => simp [countUp, hdead]
    · rfl

theorem consumed_reference (r : Reference) (rule : RateLimitRule) (now : ℚ) :
    Consumed rule now r (Reference.consume r rule now).2 (Reference.consume r rule now).1 := by
  unfold Reference.consume
  simp only
  split
  · next h => exact .refused h.1 h.2 fun _ => rfl
  · next h =>
    refine .counted ?_ fun _ => rfl
    rwa [not_and_or, not_le] at h

theorem agree_swept (s : RateLimitStore) (operationCount : ℕ) (now : ℚ) :
    Agree now (s.swept operationCount now) s.store := by
  unfold RateLimitStore.swept
  split
  · exact agree_live
  · exact fun _ => rfl

theorem get_swept_of_full {operationCount : ℕ}
    (h : MAX_RATE_LIMIT_ENTRIES ≤ (s.swept operationCount now).size) :
    s.swept operationCount now = live now s.store := by
  unfold RateLimitStore.swept at h ⊢
  split
  · rfl
  · next hsmall =>
    rw [if_neg hsmall] at h
    exact absurd (.inr h) hsmall

theorem consumed_rateLimit (s : RateLimitStore) (rule : RateLimitRule) (now : ℚ) :
    Consumed rule now s.store (consumeRateLimit s rule now).2.store
      (consumeRateLimit s rule now).1 := by
  have hagree := agree_swept s (s.operationCount + 1) now
  unfold consumeRateLimit
  simp only
  split
  · next h =>
    obtain ⟨habsent, hfull⟩ := h
    rw [OrderedMap.has, Option.isSome_eq_false_iff, Option.isNone_iff_eq_none] at habsent
    have hswept := get_swept_of_full hfull
    refine .refused ?_ ?_ hagree
    · rwa [← hswept]
    · rwa [← hswept]
  · next h =>
    rw [← countUp_live, hagree rule.key]
    refine .counted ?_ (hagree.set _)
    by_cases hfull : MAX_RATE_LIMIT_ENTRIES ≤ (s.swept (s.operationCount + 1) now).size
    · left
      rw [not_and_or, or_iff_left (not_not.2 hfull), get_swept_of_full hfull] at h
      simpa [OrderedMap.has] using h
    · right
      rw [← hagree.size]
      exact (OrderedMap.size_filter_le _ _).trans_lt (not_le.1 hfull)

/-! ### Runs -/

theorem results_agree {calls : List (RateLimitRule × ℚ)} {r : Reference}
    (hsorted : (calls.map (·.2)).Pairwise (· ≤ ·))
    (hagree : ∀ now ∈ (calls.map (·.2)).head?, Agree now s.store r) :
    (results consumeRateLimit s calls).1 = (results Reference.consume r calls).1 := by
  induction calls generalizing s r with
  | nil => rfl
  | cons call calls ih =>
    obtain ⟨rule, now⟩ := call
    obtain ⟨hfirst, hsorted⟩ := List.pairwise_cons.1 hsorted
    obtain ⟨hresult, hnext⟩ := (consumed_rateLimit s rule now).agree (consumed_reference r rule now)
      (hagree now rfl)
    have hrest := ih (s := (consumeRateLimit s rule now).2) (r := (r.consume rule now).2) hsorted
      fun later hlater => hnext.later (hfirst later (List.mem_of_head? hlater))
    simp only [results, hresult, hrest]

/-- The store never outgrows its bound. -/
theorem size_consumeRateLimit (rule : RateLimitRule) (now : ℚ)
    (h : s.store.size ≤ MAX_RATE_LIMIT_ENTRIES) :
    (consumeRateLimit s rule now).2.store.size ≤ MAX_RATE_LIMIT_ENTRIES := by
  have hswept : (s.swept (s.operationCount + 1) now).size ≤ MAX_RATE_LIMIT_ENTRIES := by
    unfold RateLimitStore.swept
    split
    · exact (OrderedMap.size_filter_le _ _).trans h
    · exact h
  unfold consumeRateLimit
  simp only
  split
  · exact hswept
  · next hroom =>
    rw [OrderedMap.size_set]
    split
    · exact hswept
    · next habsent =>
      rw [not_and_or, or_iff_right (by simpa using habsent), not_le] at hroom
      exact hroom

theorem size_results {calls : List (RateLimitRule × ℚ)}
    (h : s.store.size ≤ MAX_RATE_LIMIT_ENTRIES) :
    (results consumeRateLimit s calls).2.store.size ≤ MAX_RATE_LIMIT_ENTRIES := by
  induction calls generalizing s with
  | nil => exact h
  | cons call calls ih =>
    obtain ⟨rule, now⟩ := call
    exact ih (size_consumeRateLimit rule now h)

def allowedCount (key : JsString) (calls : List (RateLimitRule × ℚ))
    (results : List RateLimitResult) : ℕ :=
  (calls.zip results).countP fun e => decide (e.1.1.key = key) && e.2.allowed

def used (now : ℚ) (a : Entries) (key : JsString) : ℕ :=
  (((live now a).get key).map RateLimitEntry.count).getD 0

theorem get_live_stable (hle : now ≤ now')
    (h : ∀ entry, (live now a).get k = some entry → now' < entry.resetAt) :
    (live now' a).get k = (live now a).get k := by
  rw [get_live_later hle]
  cases hget : (live now a).get k with
  | none => rfl
  | some entry => rw [filter_alive, if_neg (not_le.2 (h entry hget))]

theorem countUp_of_alive {entry : RateLimitEntry} (h : now < entry.resetAt) :
    countUp rule now (some entry) = ⟨entry.count + 1, entry.resetAt⟩ := by
  rw [countUp, if_neg (not_le.2 h)]

theorem countUp_within {opened : ℚ} (hopened : opened ≤ now) (hnow : now < opened + rule.windowMs)
    (hkept : ∀ entry, (live now a).get rule.key = some entry →
      opened + rule.windowMs ≤ entry.resetAt) :
    (countUp rule now ((live now a).get rule.key)).count = used now a rule.key + 1 ∧
      opened + rule.windowMs ≤ (countUp rule now ((live now a).get rule.key)).resetAt := by
  rw [used]
  cases hget : (live now a).get rule.key with
  | none => exact ⟨rfl, add_le_add_left hopened _⟩
  | some entry =>
    have hreset := hkept entry hget
    rw [countUp_of_alive (hnow.trans_le hreset)]
    exact ⟨rfl, hreset⟩

theorem allowance {n u : ℕ} {limit : ℚ} (h : (n : ℚ) ≤ max 0 (limit - (u + 1 : ℕ))) :
    ((n + if ((u + 1 : ℕ) : ℚ) ≤ limit then 1 else 0 : ℕ) : ℚ) ≤ max 0 (limit - u) := by
  split
  · next hle =>
    push_cast at hle h ⊢
    rw [max_eq_right (by linarith)] at h
    exact le_max_of_le_right (by linarith)
  · next hlt =>
    push_cast at hlt h ⊢
    rw [max_eq_left (by linarith)] at h
    exact le_max_of_le_left (by linarith)

/-- One call while a window of a key is open: the entry of the key lives as long as before, and
what the limit leaves to the later calls is left to them after this one. -/
theorem Consumed.within {opened : ℚ} {called : RateLimitRule} (h : Consumed called now a a' result)
    (hopened : opened ≤ now) (hnow : now < opened + rule.windowMs)
    (hrule : called.key = rule.key → called = rule)
    (hkept : ∀ entry, (live now a).get rule.key = some entry →
      opened + rule.windowMs ≤ entry.resetAt) :
    (∀ entry, (live now a').get rule.key = some entry → opened + rule.windowMs ≤ entry.resetAt) ∧
    ∀ n : ℕ, (n : ℚ) ≤ max 0 (rule.limit - used now a' rule.key) →
      ((n + if called.key = rule.key ∧ result.allowed = true then 1 else 0 : ℕ) : ℚ) ≤
        max 0 (rule.limit - used now a rule.key) := by
  cases h with
  | refused absent full same =>
    have hsame := same rule.key
    refine ⟨fun entry hentry => hkept entry (hsame ▸ hentry), fun n hn => ?_⟩
    rw [used, hsame] at hn
    simpa [refusal, used] using hn
  | counted room next =>
    have hnext := next rule.key
    rw [get_live_set] at hnext
    by_cases hkey : called.key = rule.key
    · obtain rfl := hrule hkey
      obtain ⟨hcounted, hreset⟩ := countUp_within hopened hnow hkept
      generalize countUp called now ((live now a).get called.key) = entry at hnext hcounted hreset
      rw [if_pos rfl, filter_alive, if_neg (not_le.2 (hnow.trans_le hreset))] at hnext
      refine ⟨fun e he => ?_, fun n hn => ?_⟩
      · rw [hnext] at he
        cases he
        exact hreset
      · have hused : used now a' called.key = used now a called.key + 1 := by
          rw [used, hnext, Option.map_some, Option.getD_some, hcounted]
        rw [hused] at hn
        simpa [answer, hcounted] using allowance hn
    · rw [if_neg (Ne.symm hkey)] at hnext
      refine ⟨fun entry hentry => hkept entry (hnext ▸ hentry), fun n hn => ?_⟩
      rw [used, hnext] at hn
      simpa [hkey, used] using hn

/-- A window of a key: at most as many calls are allowed as the limit leaves. -/
theorem allowed_within {opened : ℚ} {calls : List (RateLimitRule × ℚ)}
    (hsorted : (calls.map (·.2)).Pairwise (· ≤ ·))
    (hwindow : ∀ call ∈ calls, now ≤ call.2 ∧ opened ≤ call.2 ∧ call.2 < opened + rule.windowMs ∧
      (call.1.key = rule.key → call.1 = rule))
    (hkept : ∀ entry, (live now s.store).get rule.key = some entry →
      opened + rule.windowMs ≤ entry.resetAt) :
    (allowedCount rule.key calls (results consumeRateLimit s calls).1 : ℚ) ≤
      max 0 (rule.limit - used now s.store rule.key) := by
  induction calls generalizing s now with
  | nil => exact le_max_left _ _
  | cons call calls ih =>
    obtain ⟨called, time⟩ := call
    obtain ⟨hfirst, hsorted⟩ := List.pairwise_cons.1 hsorted
    obtain ⟨⟨hle, hopened, hlt, hrule⟩, hwindow⟩ := List.forall_mem_cons.1 hwindow
    -- What is alive for the key does not change until the call.
    have hstable : (live time s.store).get rule.key = (live now s.store).get rule.key :=
      get_live_stable hle fun entry hentry => hlt.trans_le (hkept entry hentry)
    rw [← hstable] at hkept
    obtain ⟨hkept', hcount⟩ := (consumed_rateLimit s called time).within hopened hlt hrule hkept
    have hrest := ih hsorted (fun call hcall =>
      ⟨hfirst _ (List.mem_map_of_mem hcall), (hwindow call hcall).2⟩) hkept'
    have hused : used now s.store rule.key = used time s.store rule.key := by
      rw [used, used, hstable]
    rw [hused]
    simpa [allowedCount, results, List.countP_cons] using hcount _ hrest

/-- Each result is that of the reference, whatever the counter of operations was at the start; the
store stays within its bound; and while a window of a key is open, in which all calls for the key
give the same rule, at most as many of them are allowed as its limit says. -/
theorem rate_limits_are_fixed_windows (operationCount : ℕ) (calls : List (RateLimitRule × ℚ))
    (hsorted : (calls.map (·.2)).Pairwise (· ≤ ·)) :
    (results consumeRateLimit ⟨.empty, operationCount⟩ calls).1 =
      (results Reference.consume .empty calls).1 ∧
    (∀ before, before <+: calls →
      (results consumeRateLimit ⟨.empty, operationCount⟩ before).2.store.size ≤
        MAX_RATE_LIMIT_ENTRIES) ∧
    ∀ (before during : List (RateLimitRule × ℚ)) (rule : RateLimitRule) (opened : ℚ),
      before ++ during <+: calls →
      (∀ call ∈ during, opened ≤ call.2 ∧ call.2 < opened + rule.windowMs ∧
        (call.1.key = rule.key → call.1 = rule)) →
      let s := (results consumeRateLimit ⟨.empty, operationCount⟩ before).2
      (live opened s.store).get rule.key = none →
        (allowedCount rule.key during (results consumeRateLimit s during).1 : ℚ) ≤
          max 0 rule.limit := by
  refine ⟨results_agree hsorted fun _ _ _ => rfl, fun before _ => size_results (Nat.zero_le _), ?_⟩
  intro before during rule opened hcalls hwindow s hnone
  have hduring : (during.map (·.2)).Pairwise (· ≤ ·) :=
    hsorted.sublist (((List.sublist_append_right before during).trans hcalls.sublist).map _)
  have hallowed : (allowedCount rule.key during (results consumeRateLimit s during).1 : ℚ) ≤
      max 0 (rule.limit - used opened s.store rule.key) := by
    refine allowed_within hduring (fun call hcall => ⟨(hwindow call hcall).1, hwindow call hcall⟩)
      fun entry hentry => ?_
    rw [hnone] at hentry
    cases hentry
  rwa [used, hnone, Option.map_none, Option.getD_none, Nat.cast_zero, sub_zero] at hallowed

def threeCalls : List (RateLimitRule × ℚ) :=
  [(⟨js "k", 1, 1000⟩, 0), (⟨js "k", 1, 1000⟩, 999), (⟨js "k", 1, 1000⟩, 1000)]

theorem three_calls_in_two_windows :
    (results consumeRateLimit ⟨.empty, 254⟩ threeCalls).1.map (·.allowed) = [true, false, true] ∧
    (results consumeRateLimit ⟨.empty, 254⟩ threeCalls).1 =
      (results Reference.consume .empty threeCalls).1 := by
  obtain ⟨hresults, -⟩ := rate_limits_are_fixed_windows 254 threeCalls (by decide +kernel)
  refine ⟨?_, hresults⟩
  rw [hresults]
  decide +kernel

/-! ### Several rules at once -/

theorem allowed_answer {entry : RateLimitEntry} :
    (answer rule now entry).allowed = true ↔ (entry.count : ℚ) ≤ rule.limit := decide_eq_true_iff

theorem state_consumeRateLimits (rules : List RateLimitRule) :
    (consumeRateLimits s rules now).2 = (consumeEach s now rules).2 := by
  unfold consumeRateLimits
  simp only
  split <;> rfl

theorem allowed_iff {rules : List RateLimitRule} :
    (consumeRateLimits s rules now).1.allowed = true ↔
      ∀ result ∈ (consumeEach s now rules).1, result.allowed = true := by
  unfold consumeRateLimits
  simp only
  split
  · next r hr =>
    refine iff_of_false Bool.false_ne_true fun hall => ?_
    obtain ⟨result, hmem, -⟩ := List.mem_map.1 (List.max?_mem hr)
    obtain ⟨hmem, hdenied⟩ := List.mem_filter.1 hmem
    rw [hall result hmem] at hdenied
    cases hdenied
  · next hnone =>
    rw [List.max?_eq_none_iff, List.map_eq_nil_iff, List.filter_eq_nil_iff] at hnone
    exact iff_of_true rfl fun result hresult => by simpa using hnone result hresult

end SmartC.Web
