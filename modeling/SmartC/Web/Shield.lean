import SmartC.FixedWindow
import SmartC.Web.Executions
import SmartC.Web.Routes

/-!
# How often the internal services are asked

The limits of a route are charged before the internal service is asked, and the
store keeps one window for each key. `Metered` follows the times at which calls
for a key were counted within the limit. Requests to the service are among them,
so in a span as long as the window there are less than twice as many as the
limit, however many requests arrive and wait for their bodies at the same time.
-/

namespace SmartC.Web

open FixedWindow (Windowed since within)
open Lsp
open Transition (RecordedWhen)

/-! ### The rules of the routes -/

/-- The keys of the rules for an hour are those that end with an "r". -/
def windowOf (key : JsString) : ℚ := if key.getLast? = some 0x72 then Route.hour else Route.minute

theorem windowOf_pos (key : JsString) : 0 < windowOf key := by
  unfold windowOf
  split <;> decide

theorem windowOf_hour (a b : JsString) : windowOf (a ++ b ++ js (":" ++ "hour")) = Route.hour := by
  have hlast : (js (":" ++ "hour")).getLast? = some 0x72 := by decide
  rw [windowOf, List.getLast?_append, hlast]
  rfl

theorem windowOf_minute (a b : JsString) :
    windowOf (a ++ b ++ js (":" ++ "minute")) = Route.minute := by
  have hlast : (js (":" ++ "minute")).getLast? = some 0x65 := by decide
  rw [windowOf, List.getLast?_append, hlast]
  rfl

theorem windowMs_rules (route : Route) (visitorId clientIp : JsString) :
    (∀ rule ∈ route.requestRules visitorId clientIp, rule.windowMs = windowOf rule.key) ∧
      ∀ rule ∈ route.createRules visitorId clientIp, rule.windowMs = windowOf rule.key := by
  cases route <;>
    simp only [Route.requestRules, Route.createRules, List.forall_mem_cons, List.not_mem_nil,
      false_implies, implies_true, Route.rule, windowOf_minute, windowOf_hour, and_self]

/-! ### The times of the calls -/

/-- The times fit windows, the last of which is the one that the store has an entry for. -/
def Metered (key : JsString) (limit : ℕ) (now : ℚ) (store : Entries) (grants : List ℚ) : Prop :=
  ∃ opened ≤ now, Windowed (windowOf key) limit opened grants ∧
    (∀ entry, (live now store).get key = some entry → entry.resetAt = opened + windowOf key ∧
      opened ∈ grants ∧ since opened grants ≤ entry.count) ∧
    ((live now store).get key = none → opened + windowOf key ≤ now)

section

variable {rule called : RateLimitRule} {key : JsString} {limit : ℕ} {now now' : ℚ}
  {a a' : Entries} {result : RateLimitResult} {grants : List ℚ} {s : RateLimitStore}
  {rules : List RateLimitRule}

theorem Metered.new : Metered key limit now .empty [] := by
  have hpos := windowOf_pos key
  refine ⟨now - windowOf key, by linarith, .nil _, fun entry hentry => ?_, fun _ => by linarith⟩
  cases hentry

theorem Metered.later (h : Metered key limit now a grants) (hle : now ≤ now') :
    Metered key limit now' a grants := by
  obtain ⟨opened, hopened, hwindowed, hentry, hnone⟩ := h
  refine ⟨opened, hopened.trans hle, hwindowed, fun entry hget => ?_, fun hget => ?_⟩
  · rw [get_live_later hle] at hget
    exact hentry entry (Option.filter_eq_some_iff.1 hget).1
  · rw [get_live_later hle] at hget
    cases hold : (live now a).get key with
    | none => exact (hnone hold).trans hle
    | some entry =>
      rw [hold, filter_alive] at hget
      split at hget
      · next hdead => exact (hentry entry hold).1 ▸ hdead
      · cases hget

theorem Metered.of_entry {opened : ℚ} {n : ℕ} (hopened : opened ≤ now)
    (h : Windowed (windowOf key) limit opened grants) (hopener : opened ∈ grants)
    (hcount : since opened grants ≤ n)
    (hget : (live now a').get key = some ⟨n, opened + windowOf key⟩) :
    Metered key limit now a' grants := by
  refine ⟨opened, hopened, h, fun entry hentry => ?_, fun hnone => by cases hnone.symm.trans hget⟩
  obtain rfl := Option.some.inj (hget.symm.trans hentry)
  exact ⟨rfl, hopener, hcount⟩

theorem alive_of_get {entry : RateLimitEntry} (h : (live now a).get key = some entry) :
    now < entry.resetAt := by
  rw [get_live] at h
  simpa [RateLimitEntry.alive] using (Option.filter_eq_some_iff.1 h).2

theorem Metered.counted (h : Metered key limit now a grants) (hpos : 0 < limit)
    (hwindow : called.windowMs = windowOf key)
    (hget : (live now a').get key = some (countUp called now ((live now a).get key))) :
    ∃ more, Metered key limit now a' (grants ++ more) ∧
      ((countUp called now ((live now a).get key)).count ≤ limit → more = [now]) := by
  obtain ⟨opened, hopened, hwindowed, hentry, hnone⟩ := h
  cases hold : (live now a).get key with
  | some entry =>
    obtain ⟨hreset, hopener, hcount⟩ := hentry entry hold
    have halive := alive_of_get hold
    rw [hold, countUp_of_alive halive, hreset] at hget
    rw [countUp_of_alive halive]
    by_cases hroom : entry.count + 1 ≤ limit
    · refine ⟨[now], ?_, fun _ => rfl⟩
      refine .of_entry hopened (hwindowed.grant hopened (hreset ▸ halive) hopener (by omega))
        (List.mem_append_left _ hopener) ?_ hget
      rw [FixedWindow.since_append]
      exact Nat.add_le_add hcount List.countP_le_length
    · refine ⟨[], ?_, fun hle => absurd hle hroom⟩
      rw [List.append_nil]
      exact .of_entry hopened hwindowed hopener (hcount.trans (Nat.le_succ _)) hget
  | none =>
    have hnew := hwindowed.open (windowOf_pos key) hpos (hnone hold)
    rw [hold, countUp, hwindow] at hget
    refine ⟨[now], ?_, fun _ => rfl⟩
    refine .of_entry le_rfl hnew (List.mem_append_right _ (List.mem_singleton_self now)) ?_ hget
    exact (hwindowed.since_open (hnone hold)).le

theorem lt_resetAt_countUp (now : ℚ) (existing : Option RateLimitEntry) (h : 0 < rule.windowMs) :
    now < (countUp rule now existing).resetAt := by
  unfold countUp
  split
  · exact lt_add_of_pos_right now h
  · split
    · exact lt_add_of_pos_right now h
    · next hlater => exact not_le.1 hlater

theorem Metered.consumed (h : Metered rule.key limit now a grants) (hlimit : rule.limit = limit)
    (hpos : 0 < limit) (hcalled : called.windowMs = windowOf called.key)
    (hc : Consumed called now a a' result) :
    ∃ more, Metered rule.key limit now a' (grants ++ more) ∧
      (called = rule → result.allowed = true → more = [now]) := by
  have hkept (hget : (live now a').get rule.key = (live now a).get rule.key) :
      Metered rule.key limit now a' (grants ++ []) := by
    rw [List.append_nil]
    unfold Metered
    rwa [hget]
  cases hc with
  | refused absent full same =>
    exact ⟨[], hkept (same rule.key), fun _ hallowed => by cases hallowed⟩
  | counted room next =>
    by_cases hkey : called.key = rule.key
    · have hlater := lt_resetAt_countUp now ((live now a).get rule.key)
        (hcalled ▸ windowOf_pos called.key)
      rw [hkey] at next hcalled ⊢
      have hget : (live now a').get rule.key =
          some (countUp called now ((live now a).get rule.key)) := by
        rw [next rule.key, get_live_set, if_pos rfl, filter_alive, if_neg (not_le.2 hlater)]
      obtain ⟨more, hmore, hcounted⟩ := h.counted hpos hcalled hget
      refine ⟨more, hmore, ?_⟩
      rintro rfl hallowed
      rw [allowed_answer, hlimit] at hallowed
      exact hcounted (Nat.cast_le.1 hallowed)
    · refine ⟨[], hkept ?_, fun hsame => absurd (congrArg _ hsame) hkey⟩
      rw [next rule.key, get_live_set, if_neg (Ne.symm hkey)]

theorem Metered.each (h : Metered rule.key limit now s.store grants)
    (hlimit : rule.limit = limit) (hpos : 0 < limit)
    (hrules : ∀ called ∈ rules, called.windowMs = windowOf called.key) :
    ∃ more, Metered rule.key limit now (consumeEach s now rules).2.store (grants ++ more) ∧
      (rule ∈ rules → (∀ result ∈ (consumeEach s now rules).1, result.allowed = true) →
        [now].Sublist more) := by
  induction rules generalizing s grants with
  | nil => exact ⟨[], by rwa [List.append_nil], fun hmem => by cases hmem⟩
  | cons called rules ih =>
    obtain ⟨hcalled, hrules⟩ := List.forall_mem_cons.1 hrules
    obtain ⟨first, hstep, hgranted⟩ :=
      h.consumed hlimit hpos hcalled (consumed_rateLimit s called now)
    obtain ⟨more, hmore, hcharged⟩ := ih hstep hrules
    rw [List.append_assoc] at hmore
    refine ⟨_, hmore, fun hmem hall => ?_⟩
    obtain ⟨hfirst, hrest⟩ := List.forall_mem_cons.1 hall
    rcases List.mem_cons.1 hmem with rfl | hmem
    · rw [hgranted rfl hfirst]
      exact List.sublist_append_left [now] more
    · exact (hcharged hmem hrest).trans (List.sublist_append_right _ more)

end

/-! ### Runs -/

def timesOf (select : Fetch → Bool) (log : List Fetch) : List ℚ := (log.filter select).map (·.time)

def Fetch.isBy (route : Route) (visitorId : JsString) (fetch : Fetch) : Bool :=
  fetch.route = route ∧ fetch.visitorId = visitorId

def Fetch.isFrom (route : Route) (clientIp : JsString) (fetch : Fetch) : Bool :=
  fetch.route = route ∧ fetch.clientIp = clientIp

def Fetch.charges (rule : RateLimitRule) (fetch : Fetch) : Bool :=
  rule ∈ fetch.route.createRules fetch.visitorId fetch.clientIp

def Shielded (rule : RateLimitRule) (limit : ℕ) (s : Gateway) (log : List Fetch) : Prop :=
  ∃ grants, Metered rule.key limit s.now s.limits.store grants ∧
    (timesOf (·.charges rule) log).Sublist grants

section

variable {config : WebConfig} {s s' : Gateway} {a : GatewayAction} {log : List Fetch}
  {rule : RateLimitRule} {limit : ℕ}

/-- Rules are charged, and the requests are made under them. -/
theorem Shielded.charge {rules : List RateLimitRule} {fetched : List Fetch}
    (h : Shielded rule limit s log) (hlimit : rule.limit = limit) (hpos : 0 < limit)
    (hrules : ∀ called ∈ rules, called.windowMs = windowOf called.key) (hnow : s'.now = s.now)
    (hlimits : s'.limits = (consumeRateLimits s.limits rules s.now).2)
    (hfetched : fetched = [] ∨ ∃ fetch, fetched = [fetch] ∧ fetch.time = s.now ∧
      fetch.route.createRules fetch.visitorId fetch.clientIp = rules ∧
      (consumeRateLimits s.limits rules s.now).1.allowed = true) :
    Shielded rule limit s' (log ++ fetched) := by
  obtain ⟨grants, hmetered, hsub⟩ := h
  obtain ⟨more, hmore, hcharged⟩ := hmetered.each hlimit hpos hrules
  rw [state_consumeRateLimits] at hlimits
  refine ⟨grants ++ more, by rwa [hnow, hlimits], ?_⟩
  rw [timesOf, List.filter_append, List.map_append]
  refine hsub.append ?_
  obtain rfl | ⟨fetch, rfl, htime, rfl, hallowed⟩ := hfetched
  · exact List.nil_sublist more
  · by_cases hmem : rule ∈ fetch.route.createRules fetch.visitorId fetch.clientIp
    · simpa [Fetch.charges, hmem, htime] using hcharged hmem (allowed_iff.1 hallowed)
    · simp [Fetch.charges, hmem]

theorem Shielded.step (h : Shielded rule limit s log) (hlimit : rule.limit = limit)
    (hpos : 0 < limit) (hstep : Gateway.step config s a = some s') :
    Shielded rule limit s' (log ++ Gateway.fetches config s a) := by
  have hcase := Gateway.step_cases hstep
  generalize Gateway.fetches config s a = fetched at hcase ⊢
  cases hcase with
  | passed hms =>
    obtain ⟨grants, hmetered, hsub⟩ := h
    rw [List.append_nil]
    exact ⟨grants, hmetered.later (le_add_of_nonneg_right hms), hsub⟩
  | turnedAway | continued => rwa [List.append_nil]
  | received => exact h.charge hlimit hpos (windowMs_rules ..).1 rfl rfl (.inl rfl)
  | denied => exact h.charge hlimit hpos (windowMs_rules ..).2 rfl rfl (.inl rfl)
  | asked hreading hvalid hallowed =>
    exact h.charge hlimit hpos (windowMs_rules ..).2 rfl rfl (.inr ⟨_, rfl, rfl, rfl, hallowed⟩)

theorem within_le {C : Gateway → GatewayAction → Prop} {select : Fetch → Bool} {width : ℚ}
    (rule : RateLimitRule) (limit : ℕ) (hlimit : rule.limit = limit) (hpos : 0 < limit)
    (hwidth : windowOf rule.key = width)
    (h : RecordedWhen (gatewaySystem config) C (Gateway.fetches config) s log) (a : ℚ)
    (hselect : ∀ fetch, select fetch = true → fetch.charges rule = true) :
    within a (a + width) (timesOf select log) ≤ 2 * limit - 1 := by
  obtain ⟨grants, ⟨opened, -, hwindowed, -⟩, hsub⟩ : Shielded rule limit s log :=
    h.invariant ⟨[], .new, .slnil⟩ fun _ hs _ hstep => hs.step hlimit hpos hstep
  have hfilter : (timesOf select log).Sublist (timesOf (·.charges rule) log) :=
    (List.monotone_filter_right log fun fetch => hselect fetch).map _
  exact hwidth ▸ (FixedWindow.within_sublist (hfilter.trans hsub)).trans (hwindowed.sliding a)

end

/-- However requests arrive, the internal services are asked less than twice the limit of a rule
in any span of its window: by one visitor and from one address. -/
theorem services_are_shielded {config : WebConfig} {s : Gateway} {log : List Fetch}
    {C : Gateway → GatewayAction → Prop}
    (h : RecordedWhen (gatewaySystem config) C (Gateway.fetches config) s log)
    (a : ℚ) (visitorId clientIp : JsString) :
    within a (a + 60000) (timesOf (·.isBy .executions visitorId) log) ≤ 11 ∧
    within a (a + 60000) (timesOf (·.isFrom .executions clientIp) log) ≤ 11 ∧
    within a (a + 3600000) (timesOf (·.isFrom .executions clientIp) log) ≤ 59 ∧
    within a (a + 60000) (timesOf (·.isBy .lspSessions visitorId) log) ≤ 19 ∧
    within a (a + 60000) (timesOf (·.isFrom .lspSessions clientIp) log) ≤ 39 := by
  refine ⟨within_le (Route.executions.rule "visitor" visitorId "minute" 6 Route.minute) 6 rfl
      (by decide) (windowOf_minute ..) h a ?_,
    within_le (Route.executions.rule "ip" clientIp "minute" 6 Route.minute) 6 rfl (by decide)
      (windowOf_minute ..) h a ?_,
    within_le (Route.executions.rule "ip" clientIp "hour" 30 Route.hour) 30 rfl (by decide)
      (windowOf_hour ..) h a ?_,
    within_le (Route.lspSessions.rule "visitor" visitorId "minute" 10 Route.minute) 10 rfl
      (by decide) (windowOf_minute ..) h a ?_,
    within_le (Route.lspSessions.rule "ip" clientIp "minute" 20 Route.minute) 20 rfl (by decide)
      (windowOf_minute ..) h a ?_⟩
  all_goals
    intro fetch hfetch
    obtain ⟨hroute, rfl⟩ := of_decide_eq_true hfetch
    simp [Fetch.charges, hroute, Route.createRules]

/-- A first program, five more at the end of the minute, and seven in the next one. -/
def GatewayAction.thirteenPrograms : List GatewayAction :=
  let run := run (some (localSigner.cookieValue visitor))
  run 0 ++ [.pass 59999] ++ (List.range' 1 5).flatMap run ++ [.pass 1] ++
    (List.range' 6 7).flatMap run

theorem eleven_programs_in_a_minute :
    ∃ s log, RecordedWhen (gatewaySystem localWeb) (fun _ _ => true = true)
      (Gateway.fetches localWeb) s log ∧ log.length = 12 ∧
      within 1 (1 + 60000) (timesOf (·.isBy .executions visitor) log) = 11 := by
  obtain ⟨s, log, hrun, hp⟩ := Transition.recordedWhen_of_execute (c := fun _ _ => true)
    (i := Gateway.new) (f := Gateway.step localWeb) (Gateway.fetches localWeb)
    GatewayAction.thirteenPrograms (p := fun _ log => log.length = 12 ∧
      11 ≤ within 1 (1 + 60000) (timesOf (·.isBy .executions visitor) log)) (by decide +kernel)
  obtain ⟨hlength, hle⟩ := of_decide_eq_true hp
  exact ⟨s, log, hrun, hlength, le_antisymm (services_are_shielded hrun 1 visitor []).1 hle⟩

end SmartC.Web
