import SmartC.Web.RateLimit

/-!
# The wait of a denied call

A call that is denied is told when to come back. `waits` reads off the store
and the rules how long that is, and `Recovers` whether the rules can all be
met then: a denied call is counted by every rule that has room, so a rule that
has not expired must be able to take the same rules twice.
-/

namespace SmartC.Web

open Lsp

/-! ### The condition -/

def positions : List RateLimitRule → List (List RateLimitRule × RateLimitRule)
  | [] => []
  | rule :: rules => ([], rule) :: (positions rules).map fun p => (rule :: p.1, p.2)

def openKeys (now : ℚ) (a : Entries) : Finset JsString := (live now a).keys.toFinset

/-- The keys with an open window after some rules. A new window takes a place while there is
one; a window that is not positive is over as soon as it is opened. -/
def openAfter (keys : Finset JsString) : List RateLimitRule → Finset JsString
  | [] => keys
  | rule :: rules =>
    openAfter (if 0 < rule.windowMs ∧ keys.card < MAX_RATE_LIMIT_ENTRIES then insert rule.key keys
      else keys) rules

def HasRoom (keys : Finset JsString) (p : List RateLimitRule × RateLimitRule) : Prop :=
  p.2.key ∈ openAfter keys p.1 ∨ (openAfter keys p.1).card < MAX_RATE_LIMIT_ENTRIES

instance (keys : Finset JsString) (p : List RateLimitRule × RateLimitRule) :
    Decidable (HasRoom keys p) :=
  inferInstanceAs (Decidable (_ ∨ _))

/-- The rules that count in one window of a key: all of them if it is open, and else those
from the first one that opens it. -/
def charges (isOpen : Bool) (key : JsString) (rules : List RateLimitRule) : List RateLimitRule :=
  (rules.filter (·.key = key)).dropWhile fun rule => !isOpen && decide (rule.windowMs ≤ 0)

def usedAfter (now : ℚ) (a : Entries) (key : JsString) (rules : List RateLimitRule) : ℕ :=
  used now a key + (charges ((live now a).has key) key rules).length

def endsAfter (now : ℚ) (a : Entries) (key : JsString) (rules : List RateLimitRule) : ℚ :=
  match (live now a).get key with
  | some entry => entry.resetAt
  | none => now + ((charges false key rules).head?.map RateLimitRule.windowMs).getD 0

/-- How long a rule that is denied lasts, in seconds: a whole window if there is no room, and
what is left of its window if its limit is exceeded. -/
def waitAt (now : ℚ) (a : Entries) (p : List RateLimitRule × RateLimitRule) : Option ℤ :=
  if ¬ HasRoom (openKeys now a) p then some (waitSeconds p.2.windowMs)
  else if p.2.limit < (usedAfter now a p.2.key p.1 + 1 : ℕ) then
    some (waitSeconds (endsAfter now a p.2.key p.1 - now))
  else none

def waits (now : ℚ) (a : Entries) (rules : List RateLimitRule) : List ℤ :=
  (positions rules).filterMap (waitAt now a)

def keptAt (now : ℚ) (a : Entries) (rules : List RateLimitRule) (later : ℚ) : Finset JsString :=
  (openAfter (openKeys now a) rules).filter fun k => later < endsAfter now a k rules

/-- At a later time every rule has room, and its limit is enough: for all rules of its key
twice if its window is still open, and for those before it and itself if not. -/
def Recovers (now : ℚ) (a : Entries) (rules : List RateLimitRule) (later : ℚ) : Prop :=
  ∀ p ∈ positions rules, HasRoom (keptAt now a rules later) p ∧
    (((if p.2.key ∈ keptAt now a rules later then
        usedAfter now a p.2.key rules + (charges true p.2.key p.1).length
      else (charges false p.2.key p.1).length) + 1 : ℕ) : ℚ) ≤ p.2.limit

instance (now : ℚ) (a : Entries) (rules : List RateLimitRule) (later : ℚ) :
    Decidable (Recovers now a rules later) :=
  inferInstanceAs (Decidable (∀ p ∈ positions rules, _ ∧ _))

variable {rule : RateLimitRule} {rules before : List RateLimitRule} {now later : ℚ}
  {s : RateLimitStore} {a a' : Entries} {result : RateLimitResult} {k : JsString}
  {keys : Finset JsString}

/-! ### One more rule -/

theorem mem_openKeys : k ∈ openKeys now a ↔ (live now a).get k ≠ none :=
  List.mem_toFinset.trans OrderedMap.mem_keys_iff

theorem card_openKeys : (openKeys now a).card = (live now a).size := OrderedMap.card_keys _

theorem resetAt_of_live {entry : RateLimitEntry} (h : (live now a).get k = some entry) :
    now < entry.resetAt := by
  rw [get_live, Option.filter_eq_some_iff] at h
  exact of_decide_eq_true h.2

theorem openAfter_of_full (h : MAX_RATE_LIMIT_ENTRIES ≤ keys.card) : openAfter keys rules = keys := by
  induction rules with
  | nil => rfl
  | cons rule rules ih => rw [openAfter, if_neg fun hroom => not_lt.2 h hroom.2, ih]

theorem charges_of_ne (isOpen : Bool) (h : k ≠ rule.key) :
    charges isOpen k (rule :: rules) = charges isOpen k rules := by
  rw [charges, List.filter_cons_of_neg (by simpa using Ne.symm h), charges]

theorem charges_open : charges true k rules = rules.filter (·.key = k) := by
  rw [charges]
  cases rules.filter (·.key = k) <;> rfl

theorem charges_opens (h : 0 < rule.windowMs) :
    charges false rule.key (rule :: rules) = rule :: rules.filter (·.key = rule.key) := by
  rw [charges, List.filter_cons_of_pos (by simp), List.dropWhile_cons_of_neg (by simpa using h)]

theorem charges_void (h : rule.windowMs ≤ 0) :
    charges false rule.key (rule :: rules) = charges false rule.key rules := by
  rw [charges, List.filter_cons_of_pos (by simp), List.dropWhile_cons_of_pos (by simpa using h),
    charges]

theorem Consumed.get_self (h : Consumed rule now a a' result)
    (hroom : (live now a).get rule.key ≠ none ∨ (live now a).size < MAX_RATE_LIMIT_ENTRIES) :
    (live now a').get rule.key =
      (some (countUp rule now ((live now a).get rule.key))).filter (·.alive now) := by
  cases h with
  | refused absent full same => exact absurd hroom (by simp [absent, full])
  | counted room next => rw [next rule.key, get_live_set, if_pos rfl]

theorem Consumed.get_other (h : Consumed rule now a a' result) (hk : k ≠ rule.key) :
    (live now a').get k = (live now a).get k := by
  cases h with
  | refused absent full same => exact same k
  | counted room next => rw [next k, get_live_set, if_neg hk]

theorem Consumed.keys_next (h : Consumed rule now a a' result) : openKeys now a' =
    if 0 < rule.windowMs ∧ (openKeys now a).card < MAX_RATE_LIMIT_ENTRIES then
      insert rule.key (openKeys now a)
    else openKeys now a := by
  have hself : rule.key ∈ openKeys now a' ↔ rule.key ∈ openKeys now a ∨
      0 < rule.windowMs ∧ (openKeys now a).card < MAX_RATE_LIMIT_ENTRIES := by
    rw [mem_openKeys, mem_openKeys, card_openKeys]
    by_cases hroom : (live now a).get rule.key ≠ none ∨ (live now a).size < MAX_RATE_LIMIT_ENTRIES
    · rw [h.get_self hroom, filter_alive]
      cases hget : (live now a).get rule.key with
      | none =>
        rw [hget, or_iff_right (not_not.2 rfl)] at hroom
        simp [countUp, hroom]
      | some entry =>
        have halive := resetAt_of_live hget
        simp [countUp_of_alive halive, halive]
    · cases h with
      | refused absent full same => simp [same rule.key, absent, full]
      | counted room next => exact absurd room hroom
  ext k
  by_cases hk : k = rule.key
  · subst hk
    rw [hself]
    split <;> simp_all
  · rw [mem_openKeys, h.get_other hk, ← mem_openKeys]
    split <;> simp [hk]

theorem Consumed.charged (h : Consumed rule now a a' result)
    (hk : k ∈ openAfter (openKeys now a') rules ∨
      (openAfter (openKeys now a') rules).card < MAX_RATE_LIMIT_ENTRIES) (rules' : List RateLimitRule) :
    usedAfter now a' k rules' = usedAfter now a k (rule :: rules') ∧
      endsAfter now a' k rules' = endsAfter now a k (rule :: rules') := by
  by_cases hkey : k = rule.key
  · subst hkey
    -- A rule without room is not among the keys, and leaves no room.
    have hroom : (live now a).get rule.key ≠ none ∨
        (live now a).size < MAX_RATE_LIMIT_ENTRIES := by
      rw [← mem_openKeys, ← card_openKeys]
      by_contra hfull
      obtain ⟨habsent, hfull⟩ := not_or.1 hfull
      rw [h.keys_next, if_neg fun hroom => hfull hroom.2, openAfter_of_full (not_lt.1 hfull)] at hk
      exact hk.elim habsent hfull
    have hself := h.get_self hroom
    rw [filter_alive] at hself
    cases hget : (live now a).get rule.key with
    | some entry =>
      have halive := resetAt_of_live hget
      rw [hget, countUp_of_alive halive, if_neg (not_le.2 halive)] at hself
      constructor
      · simp [usedAfter, used, OrderedMap.has, hself, hget, charges_open]
        omega
      · simp [endsAfter, hself, hget]
    | none =>
      rw [hget] at hself
      by_cases hwindow : 0 < rule.windowMs
      · rw [countUp, if_neg (by simpa using hwindow)] at hself
        constructor
        · simp [usedAfter, used, OrderedMap.has, hself, hget, charges_open, charges_opens hwindow]
          omega
        · simp [endsAfter, hself, hget, charges_opens hwindow]
      · rw [countUp, if_pos (by simpa using hwindow)] at hself
        simp [usedAfter, used, endsAfter, OrderedMap.has, hself, hget,
          charges_void (not_lt.1 hwindow)]
  · simp [usedAfter, used, endsAfter, OrderedMap.has, h.get_other hkey, charges_of_ne _ hkey]

/-! ### All rules -/

def RateLimitResult.wait (result : RateLimitResult) : Option ℤ :=
  if result.allowed then none else some result.retryAfterSeconds

theorem waitAt_next (h : Consumed rule now a a' result) (p : List RateLimitRule × RateLimitRule) :
    waitAt now a' p = waitAt now a (rule :: p.1, p.2) := by
  have hkeys : HasRoom (openKeys now a') p ↔ HasRoom (openKeys now a) (rule :: p.1, p.2) := by
    rw [HasRoom, HasRoom, openAfter, h.keys_next]
  by_cases hroom : HasRoom (openKeys now a') p
  · obtain ⟨hused, hends⟩ := h.charged hroom p.1
    simp only [waitAt, hkeys, hused, hends]
  · simp only [waitAt, hkeys, hkeys.not.1 hroom, not_false_eq_true, ↓reduceIte]

theorem wait_of_consumed (h : Consumed rule now a a' result) (hlimit : 1 ≤ rule.limit) :
    result.wait = waitAt now a ([], rule) := by
  have hroom : HasRoom (openKeys now a) ([], rule) ↔
      (live now a).get rule.key ≠ none ∨ (live now a).size < MAX_RATE_LIMIT_ENTRIES := by
    rw [HasRoom, openAfter, mem_openKeys, card_openKeys]
  cases h with
  | refused absent full same =>
    have hfull : ¬ HasRoom (openKeys now a) ([], rule) := fun h => absurd (hroom.1 h) (by
      simp [absent, full])
    rw [waitAt, if_pos hfull]
    rfl
  | counted room next =>
    rw [waitAt, if_neg (not_not.2 (hroom.2 room))]
    cases hget : (live now a).get rule.key with
    | none =>
      simp [RateLimitResult.wait, answer, countUp, usedAfter, used, hget, charges, hlimit]
    | some entry =>
      rw [countUp_of_alive (resetAt_of_live hget)]
      by_cases hover : rule.limit < (entry.count + 1 : ℕ) <;>
        simp_all [RateLimitResult.wait, answer, usedAfter, used, endsAfter, charges]

theorem waits_consumeEach (hlimits : ∀ rule ∈ rules, 1 ≤ rule.limit) :
    (consumeEach s now rules).1.filterMap RateLimitResult.wait = waits now s.store rules := by
  induction rules generalizing s with
  | nil => rfl
  | cons rule rules ih =>
    obtain ⟨hlimit, hlimits⟩ := List.forall_mem_cons.1 hlimits
    have hcall := consumed_rateLimit s rule now
    have htail : waits now (consumeRateLimit s rule now).2.store rules =
        ((positions rules).map fun p => (rule :: p.1, p.2)).filterMap (waitAt now s.store) := by
      rw [List.filterMap_map, waits]
      exact List.filterMap_congr fun p _ => waitAt_next hcall p
    rw [waits, positions, List.filterMap_cons, ← htail, ← ih hlimits, ← wait_of_consumed hcall hlimit]
    exact List.filterMap_cons

theorem map_denied (results : List RateLimitResult) :
    (results.filter (!·.allowed)).map (·.retryAfterSeconds) =
      results.filterMap RateLimitResult.wait := by
  induction results with
  | nil => rfl
  | cons result results ih =>
    cases hallowed : result.allowed <;> simp [RateLimitResult.wait, hallowed, ih]

/-- A call is denied if some rule has a wait, and then told to wait for the longest. -/
theorem consumeRateLimits_waits (hlimits : ∀ rule ∈ rules, 1 ≤ rule.limit) :
    ((consumeRateLimits s rules now).1.allowed = true ↔ waits now s.store rules = []) ∧
      ∀ r ∈ (waits now s.store rules).max?,
        (consumeRateLimits s rules now).1.retryAfterSeconds = r := by
  unfold consumeRateLimits
  simp only [map_denied, waits_consumeEach hlimits]
  cases hmax : (waits now s.store rules).max? with
  | none => simp [List.max?_eq_none_iff.1 hmax]
  | some r =>
    have hne : waits now s.store rules ≠ [] := fun hnil => by simp [hnil] at hmax
    simp [hne]

theorem get_consumeEach : (live now (consumeEach s now rules).2.store).get k =
    if k ∈ openAfter (openKeys now s.store) rules then
      some ⟨usedAfter now s.store k rules, endsAfter now s.store k rules⟩
    else none := by
  induction rules generalizing s with
  | nil =>
    simp only [openAfter, mem_openKeys, consumeEach]
    cases hget : (live now s.store).get k <;> simp [usedAfter, used, endsAfter, charges, hget]
  | cons rule rules ih =>
    have hcall := consumed_rateLimit s rule now
    rw [openAfter, ← hcall.keys_next]
    refine (ih (s := (consumeRateLimit s rule now).2)).trans ?_
    split
    · next hmem =>
      obtain ⟨hused, hends⟩ := hcall.charged (.inl hmem) rules
      rw [hused, hends]
    · rfl

theorem get_later (hle : now ≤ later) : (live later (consumeEach s now rules).2.store).get k =
    if k ∈ keptAt now s.store rules later then
      some ⟨usedAfter now s.store k rules, endsAfter now s.store k rules⟩
    else none := by
  simp only [get_live_later hle, get_consumeEach, keptAt, Finset.mem_filter]
  by_cases hmem : k ∈ openAfter (openKeys now s.store) rules
  · rw [if_pos hmem, filter_alive]
    by_cases hlater : later < endsAfter now s.store k rules
    · simp [hmem, hlater, not_le.2 hlater]
    · simp [hmem, hlater, not_lt.1 hlater]
  · simp [hmem]

theorem recovers_iff (hle : now ≤ later) : Recovers now s.store rules later ↔
    waits later (consumeEach s now rules).2.store rules = [] := by
  have hkeys : openKeys later (consumeEach s now rules).2.store =
      keptAt now s.store rules later := by
    ext k
    rw [mem_openKeys, get_later hle]
    split <;> simp_all
  have hused : ∀ p : List RateLimitRule × RateLimitRule,
      usedAfter later (consumeEach s now rules).2.store p.2.key p.1 =
        if p.2.key ∈ keptAt now s.store rules later then
          usedAfter now s.store p.2.key rules + (charges true p.2.key p.1).length
        else (charges false p.2.key p.1).length := by
    intro p
    rw [usedAfter, used, OrderedMap.has, get_later hle]
    split <;> simp
  rw [waits, List.filterMap_eq_nil_iff, Recovers]
  refine forall₂_congr fun p _ => ?_
  rw [waitAt, hkeys, hused]
  by_cases hroom : HasRoom (keptAt now s.store rules later) p <;> simp [hroom]

theorem waits_pos {r : ℤ} (h : r ∈ waits now a rules) : 1 ≤ r := by
  obtain ⟨p, -, hp⟩ := List.mem_filterMap.1 h
  unfold waitAt at hp
  repeat' split at hp
  all_goals cases hp
  all_goals exact le_max_left _ _

/-- The retry that a denied call is told to make is allowed exactly when the rules have recovered
by then. -/
theorem retry_after_is_truthful (s : RateLimitStore) (rules : List RateLimitRule) (now : ℚ)
    (hlimits : ∀ rule ∈ rules, 1 ≤ rule.limit) :
    ((consumeRateLimits s rules now).1.allowed = false →
      (consumeRateLimits (consumeRateLimits s rules now).2 rules
        (now + 1000 * (consumeRateLimits s rules now).1.retryAfterSeconds)).1.allowed = true) ↔
      ∀ r ∈ (waits now s.store rules).max?, Recovers now s.store rules (now + 1000 * r) := by
  obtain ⟨hallowed, hretry⟩ := @consumeRateLimits_waits rules now s hlimits
  cases hmax : (waits now s.store rules).max? with
  | none =>
    have hyes := hallowed.2 (List.max?_eq_none_iff.1 hmax)
    simp [hyes]
  | some r =>
    have hmem := List.max?_mem hmax
    have hdenied : (consumeRateLimits s rules now).1.allowed = false :=
      eq_false_of_ne_true fun h => by simp [hallowed.1 h] at hmem
    have hle : now ≤ now + 1000 * (r : ℚ) := by
      have hcast : (1 : ℚ) ≤ r := by exact_mod_cast waits_pos hmem
      linarith
    rw [hretry r hmax, state_consumeRateLimits, (consumeRateLimits_waits hlimits).1,
      ← recovers_iff hle]
    simp [hdenied]

def shortAndLong (n : ℚ) : List RateLimitRule := [⟨js "short", 1, 1000⟩, ⟨js "long", n, 10000⟩]

theorem third_call_is_allowed :
    (consumeRateLimits (consumeRateLimits (consumeRateLimits .new (shortAndLong 3) 0).2
      (shortAndLong 3) 100).2 (shortAndLong 3) 1100).1.allowed = true := by
  have hresult : (consumeRateLimits (consumeRateLimits .new (shortAndLong 3) 0).2
      (shortAndLong 3) 100).1 = ⟨false, some 0, 1⟩ := by decide +kernel
  have hretry := (retry_after_is_truthful (consumeRateLimits .new (shortAndLong 3) 0).2
    (shortAndLong 3) 100 (by decide +kernel)).2 (by decide +kernel) (by rw [hresult])
  have hlater : (100 : ℚ) + 1000 * ((1 : ℤ) : ℚ) = 1100 := by norm_num
  rwa [hresult, hlater] at hretry

/-- The second call is denied by the short rule alone and told to wait for a second. It has used
up the long rule, which denies the third one. -/
theorem third_call_is_denied :
    (consumeRateLimits .new (shortAndLong 2) 0).1.allowed = true ∧
    (consumeRateLimits (consumeRateLimits .new (shortAndLong 2) 0).2 (shortAndLong 2) 100).1 =
      ⟨false, some 0, 1⟩ ∧
    (consumeRateLimits (consumeRateLimits (consumeRateLimits .new (shortAndLong 2) 0).2
      (shortAndLong 2) 100).2 (shortAndLong 2) (100 + 1000 * 1)).1.allowed = false := by
  decide +kernel

end SmartC.Web
