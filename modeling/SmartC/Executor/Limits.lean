import SmartC.Executor.Custody

/-!
# The concurrency limits are exact

Every session whose ticket was consumed is charged to its visitor and to its
address until its release reaches the limit table, and occupies one pending
slot until its activation or its release does. The counters of `LimitState`
count exactly these sessions.
-/

namespace SmartC.Executor

open Function (update)
open Transition (ReachableWhen)

/-! ### Counters without zeros -/

/-- `map` stores the positive values of `n`. -/
def Tally (map : String → Option Nat) (n : String → Nat) : Prop :=
  ∀ k, map k = if n k = 0 then none else some (n k)

theorem Tally.getD (h : Tally map n) (k : String) : (map k).getD 0 = n k := by
  rw [h k]
  split <;> simp [*]

theorem Tally.ne_zero (h : Tally map n) (k : String) : map k ≠ some 0 := by
  rw [h k]
  split <;> simp [*]

theorem Tally.pos (h : Tally map n) (hk : 0 < n k) : ∃ m, map k = some (m + 1) := by
  refine ⟨n k - 1, ?_⟩
  rw [h k, if_neg (by omega)]
  simp only [Option.some.injEq]
  omega

theorem Tally.increment (h : Tally map n) (hn : ∀ k, n' k = n k + if k = key then 1 else 0) :
    Tally (increment map key) n' := by
  intro k
  simp only [Executor.increment, Function.update_apply, h.getD, hn k]
  split
  · subst k; simp
  · simp [h k]

theorem Tally.decrement (h : Tally map n) (hn : ∀ k, n k = n' k + if k = key then 1 else 0) :
    Tally (decrement map key) n' := by
  intro k
  have hkey := h key
  rw [hn key] at hkey
  have hk := h k
  rw [hn k] at hk
  simp only [if_true, Nat.add_eq_zero_iff, Nat.one_ne_zero, and_false, if_false] at hkey
  simp only [Executor.decrement, hkey, Function.update_apply, Nat.add_sub_cancel]
  split
  · subst k; rfl
  · simp [*]

/-! ### Charged sessions and pending slots -/

@[grind]
def Role.releases : Role → Option Uuid
  | .completing j stage =>
    match stage with
    | .releaseLimits .. => some j
    | .finish | .sendPhase _ | .sendExit _ | .releaseInner _ | .freeWorker _ | .count | .remove
    | .notify => none
  | .idle | .counting _ | .checking _ | .admitting _ | .enqueueing _ | .notifying | .popped _
  | .assigning _ | .returning .. | .awaiting | .parked | .reporting _ | .stopping _
  | .ending .. => none

@[grind]
def Role.vacates : Role → Option Uuid
  | .enqueueing j => some j
  | .completing j stage =>
    match stage with
    | .releaseLimits _ wasPending => if wasPending then some j else none
    | .finish | .sendPhase _ | .sendExit _ | .releaseInner _ | .freeWorker _ | .count | .remove
    | .notify => none
  | .idle | .counting _ | .checking _ | .admitting _ | .notifying | .popped _
  | .assigning _ | .returning .. | .awaiting | .parked | .reporting _ | .stopping _
  | .ending .. => none

theorem Role.releases_eq_some {r : Role} :
    r.releases = some j ↔ ∃ w p, r = .completing j (.releaseLimits w p) := by
  cases r
  case completing k stage => cases stage <;> simp [Role.releases]
  all_goals simp [Role.releases]

theorem Role.vacates_eq_some {r : Role} :
    r.vacates = some j ↔ r = .enqueueing j ∨ ∃ w, r = .completing j (.releaseLimits w true) := by
  cases r
  case completing k stage => cases stage <;> simp [Role.vacates, and_comm]
  all_goals simp [Role.vacates]

theorem Role.job_of_releases {r : Role} (h : r.releases = some j) : r.job = some j := by
  obtain ⟨w, p, rfl⟩ := Role.releases_eq_some.mp h
  rfl

theorem Role.job_of_vacates {r : Role} (h : r.vacates = some j) : r.job = some j := by
  rcases Role.vacates_eq_some.mp h with rfl | ⟨w, rfl⟩ <;> rfl

def Charged (L : Ledger) (role : Tid → Role) (j : Uuid) : Prop :=
  (L.flags j).limitsReserved = true ∨ ∃ t, (role t).releases = some j

def Pending (L : Ledger) (role : Tid → Role) (j : Uuid) : Prop :=
  (L.flags j).pendingActivation = true ∨ ∃ t, (role t).vacates = some j

/-- The session whose limits a task will look at before it goes on. -/
@[grind]
def Role.willRelease : Role → Option Uuid
  | .completing j stage =>
    match stage with
    | .sendPhase _ | .sendExit _ | .releaseInner _ => some j
    | .finish | .releaseLimits .. | .freeWorker _ | .count | .remove | .notify => none
  | .idle | .counting _ | .checking _ | .admitting _ | .enqueueing _ | .notifying | .popped _
  | .assigning _ | .returning .. | .awaiting | .parked | .reporting _ | .stopping _
  | .ending .. => none

/-- Once a release has begun, the flags of the session say so; before that, a
finished session with a reservation has a task that will release it. -/
structure Releasing (L : Ledger) (role : Tid → Role) : Prop where
  released : ∀ t j, (role t).releases = some j → (L.flags j).limitsReleased = true
  unconnected : ∀ t j w, role t = .completing j (.releaseLimits w true) →
    (L.flags j).socketConnected = false
  reserved : ∀ j, (L.flags j).limitsReserved = true → (L.flags j).finished = true →
    ∃ t, (role t).willRelease = some j

section

variable {config : AppConfig} {L L' : Ledger} {role : Tid → Role} {t : Tid} {r r' : Role}

theorem Releasing.move_released (h : Releasing L role) (hk : Known L role) (hr : role t = r)
    (hm : Move config t L r L' r') :
    ∀ u j, (update role t r' u).releases = some j → (L'.flags j).limitsReleased = true := by
  have hreleased := h.released
  cases hm
  case insert fresh room =>
    have hnew := hk.flags _ fresh
    refine forall_role_update (fun u k hu => ?_) nofun
    have hold := hreleased u k hu
    grind
  case consume | activate | finish | release | assign => grind
  all_goals exact forall_role_update hreleased nofun

theorem Releasing.move_unconnected (h : Releasing L role) (hf : ∀ j, (L.flags j).Ok)
    (hc : ∀ t j stage, role t = .completing j stage → (L.flags j).finished = true)
    (hr : role t = r) (hm : Move config t L r L' r') (u : Tid) (j : Uuid) (w : Option String)
    (hu : update role t r' u = .completing j (.releaseLimits w true)) :
    (L'.flags j).socketConnected = false := by
  by_cases hut : u = t
  · subst hut
    rw [Function.update_self] at hu
    cases hm
    case release k w' free unreleased reserved =>
      -- A session that is still pending has not been connected.
      simp only [Role.completing.injEq, CompleteAt.releaseLimits.injEq] at hu
      obtain ⟨rfl, -, hpending⟩ := hu
      simpa using ((hf k).pending hpending).2
    all_goals simp at hu
  · rw [Function.update_of_ne hut] at hu
    have hold := h.unconnected u j w hu
    have hfinished := hc u j _ hu
    cases hm
    case insert | consume | activate | finish | release | assign => grind
    all_goals exact hold

theorem Releasing.move_reserved (h : Releasing L role) (hf : ∀ j, (L.flags j).Ok)
    (hl : Locked L role) (hr : role t = r) (hm : Move config t L r L' r') (j : Uuid)
    (hreserved : (L'.flags j).limitsReserved = true) (hfinished : (L'.flags j).finished = true) :
    ∃ u, (update role t r' u).willRelease = some j := by
  have hold := h.reserved j
  have hlive : ∀ k, r.locks = some k → (L.flags k).finished = false := hr ▸ hl.live t
  rw [exists_role_update _ _ _ (P := fun r => r.willRelease = some j)]
  cases hm
  case keepLimits k w nothing =>
    have hboth := (hf k).reserved
    grind
  case insert | consume | activate | finish | sendPhase | sendExit | release | assign => grind
  all_goals
    obtain ⟨u, hu⟩ := hold hreserved hfinished
    refine .inr ⟨u, ?_, hu⟩
    rintro rfl
    simp [hr, Role.willRelease] at hu

theorem Releasing.move (h : Releasing L role) (hk : Known L role) (hf : ∀ j, (L.flags j).Ok)
    (hl : Locked L role)
    (hc : ∀ t j stage, role t = .completing j stage → (L.flags j).finished = true)
    (hr : role t = r) (hm : Move config t L r L' r') : Releasing L' (update role t r') :=
  ⟨h.move_released hk hr hm, h.move_unconnected hf hc hr hm, h.move_reserved hf hl hr hm⟩

end

theorem releasing (h : ReachableWhen (ledgerSystem config) D o) : Releasing o.ledger o.role :=
  ledger_invariant h ⟨by simp [Role.releases], by simp, by simp [Ledger.new, Flags.new]⟩
    fun hr _ hi ht hm => hi.move (known hr) (flags_ok hr) (locked hr)
      (fun _ _ _ => completing_finished hr) ht hm

/-! ### How a move changes them -/

section

variable {config : AppConfig} {D : Overview → Tid → Prop} {L L' : Ledger} {role role' : Tid → Role}
  {t : Tid} {r r' : Role} {j : Uuid}

theorem releases_unique (h : ReachableWhen (ledgerSystem config) D ⟨L, role⟩)
    (ht : (role t).releases = some j) (hu : (role u).releases = some j) : t = u := by
  obtain ⟨progress, hp⟩ := progressed h
  obtain ⟨w, p, ht⟩ := Role.releases_eq_some.mp ht
  obtain ⟨w', p', hu⟩ := Role.releases_eq_some.mp hu
  have ht := (hp.completing t j _).mp ht
  have hu := (hp.completing u j _).mp hu
  exact (Progress.completing.inj (ht.symm.trans hu)).1

theorem charged_move (h : ReachableWhen (ledgerSystem config) D ⟨L, role⟩) (hr : role t = r)
    (hm : Move config t L r L' r') (k : Uuid) (hconsume : r ≠ .admitting k ∨ L'.flags k = L.flags k)
    (hsettle : r.releases ≠ some k) :
    Charged L' (update role t r') k ↔ Charged L role k := by
  have hroles := exists_role_update_of_not r' (P := fun r => r.releases = some k) hr hsettle
  cases hm
  case insert fresh room =>
    have hnew : L.flags _ = .new := (known h).flags _ fresh
    exact or_congr (by grind) (hroles nofun)
  case consume | activate | finish | assign => exact or_congr (by grind) (hroles nofun)
  case release =>
    rw [Charged, exists_role_update _ _ _ (P := fun r => r.releases = some k), Charged]
    grind
  all_goals exact or_congr Iff.rfl (hroles nofun)

theorem pending_move (h : ReachableWhen (ledgerSystem config) D ⟨L, role⟩) (hr : role t = r)
    (hm : Move config t L r L' r') (k : Uuid) (hconsume : r ≠ .admitting k ∨ L'.flags k = L.flags k)
    (hvacate : r.vacates ≠ some k) :
    Pending L' (update role t r') k ↔ Pending L role k := by
  have hroles := exists_role_update_of_not r' (P := fun r => r.vacates = some k) hr hvacate
  cases hm
  case insert fresh room =>
    have hnew : L.flags _ = .new := (known h).flags _ fresh
    exact or_congr (by grind) (hroles nofun)
  case consume | finish | assign => exact or_congr (by grind) (hroles nofun)
  case activate | release =>
    rw [Pending, exists_role_update _ _ _ (P := fun r => r.vacates = some k), Pending]
    grind
  all_goals exact or_congr Iff.rfl (hroles nofun)

theorem admitting_uncharged (h : ReachableWhen (ledgerSystem config) D ⟨L, role⟩)
    (hr : role t = .admitting j) : ¬ Charged L role j := by
  have hunused := (locked h).unused t j (by simp [hr, Role.checks])
  have hlive := (locked h).live t j (by simp [hr, Role.locks])
  rintro (hreserved | ⟨u, hu⟩)
  · exact Bool.false_ne_true (hunused.symm.trans ((flags_ok h j).reserved hreserved).1)
  · obtain ⟨w, p, hu⟩ := Role.releases_eq_some.mp hu
    exact Bool.false_ne_true (hlive.symm.trans (completing_finished h hu))

theorem holds_connected (h : ReachableWhen (ledgerSystem config) D ⟨L, role⟩)
    (ht : (role t).holds = some j) : (L.flags j).socketConnected = true := by
  obtain ⟨place, hp⟩ := placed h
  refine Bool.of_not_eq_false fun hf => ?_
  have hheld := (hp.held t j).mp ht
  simp [hp.outside j hf] at hheld

theorem admitting_not_pending (h : ReachableWhen (ledgerSystem config) D ⟨L, role⟩)
    (hr : role t = .admitting j) : ¬ Pending L role j := by
  have hf := flags_ok h j
  have hunused := (locked h).unused t j (by simp [hr, Role.checks])
  have hlive := (locked h).live t j (by simp [hr, Role.locks])
  rintro (hpending | ⟨u, hu⟩)
  · exact Bool.false_ne_true (hunused.symm.trans (hf.reserved (hf.pending hpending).1).1)
  · rcases Role.vacates_eq_some.mp hu with hu | ⟨w, hu⟩
    · have hconnected := holds_connected h (t := u) (j := j) (by simp [hu, Role.holds])
      exact Bool.false_ne_true (hunused.symm.trans (hf.connected hconnected))
    · exact Bool.false_ne_true (hlive.symm.trans (completing_finished h hu))

theorem releases_uncharged (h : ReachableWhen (ledgerSystem config) D ⟨L, role⟩)
    (ht : (role t).releases = some j) (hr' : r'.releases ≠ some j) :
    ¬ Charged L (update role t r') j := by
  have hreleased := (releasing h).released t j ht
  rintro (hreserved | ⟨u, hu⟩)
  · exact Bool.false_ne_true (((flags_ok h j).reserved hreserved).2.symm.trans hreleased)
  · by_cases hut : u = t
    · subst hut; exact hr' (by simpa using hu)
    · exact hut (releases_unique h (by simpa [hut] using hu) ht)

theorem vacates_unique (h : ReachableWhen (ledgerSystem config) D ⟨L, role⟩)
    (ht : (role t).vacates = some j) (hu : (role u).vacates = some j) : t = u := by
  obtain ⟨place, hp⟩ := placed h
  obtain ⟨progress, hg⟩ := progressed h
  have hunconnected := (releasing h).unconnected
  rcases Role.vacates_eq_some.mp ht with ht | ⟨w, ht⟩ <;>
    rcases Role.vacates_eq_some.mp hu with hu | ⟨w', hu⟩
  · have ht := (hp.held t j).mp (by simp [ht, Role.holds])
    have hu := (hp.held u j).mp (by simp [hu, Role.holds])
    exact Place.held.inj (ht.symm.trans hu)
  · have hconnected := holds_connected h (t := t) (j := j) (by simp [ht, Role.holds])
    exact absurd ((hunconnected u j w' hu).symm.trans hconnected) Bool.false_ne_true
  · have hconnected := holds_connected h (t := u) (j := j) (by simp [hu, Role.holds])
    exact absurd ((hunconnected t j w ht).symm.trans hconnected) Bool.false_ne_true
  · have ht := (hg.completing t j _).mp ht
    have hu := (hg.completing u j _).mp hu
    exact (Progress.completing.inj (ht.symm.trans hu)).1

theorem vacates_not_pending (h : ReachableWhen (ledgerSystem config) D ⟨L, role⟩)
    (ht : (role t).vacates = some j) (hr' : r'.vacates ≠ some j) :
    ¬ Pending L (update role t r') j := by
  have hf := flags_ok h j
  rintro (hpending | ⟨u, hu⟩)
  · obtain ⟨hreserved, hunconnected⟩ := hf.pending hpending
    rcases Role.vacates_eq_some.mp ht with ht | ⟨w, ht⟩
    · have hconnected := holds_connected h (t := t) (j := j) (by simp [ht, Role.holds])
      exact Bool.false_ne_true (hunconnected.symm.trans hconnected)
    · have hreleased := (releasing h).released t j (by simp [ht, Role.releases])
      exact Bool.false_ne_true ((hf.reserved hreserved).2.symm.trans hreleased)
  · by_cases hut : u = t
    · subst hut; exact hr' (by simpa using hu)
    · exact hut (vacates_unique h (by simpa [hut] using hu) ht)

end

/-! ### The counters -/

noncomputable def load (own : Uuid → String) (L : Ledger) (role : Tid → Role) (v : String) : Nat :=
  L.created.countWhere fun j => Charged L role j ∧ own j = v

noncomputable def pendingSessions (L : Ledger) (role : Tid → Role) : Nat :=
  L.created.countWhere fun j => Pending L role j

structure Tallied (config : AppConfig) (L : Ledger) (role : Tid → Role) : Prop where
  visitors : Tally L.limits.byVisitor (load L.visitor L role)
  ips : Tally L.limits.byIp (load L.ip L role)
  pending : L.limits.pendingActivations = pendingSessions L role
  visitorBound : ∀ v, load L.visitor L role v ≤ config.visitorConcurrency
  ipBound : ∀ v, load L.ip L role v ≤ config.ipConcurrency

section

variable {L L' : Ledger} {role role' : Tid → Role} {j : Uuid}

theorem load_pos (own : Uuid → String) (hj : j ∈ L.created) (hc : Charged L role j) :
    0 < load own L role (own j) :=
  Finset.countWhere_pos hj ⟨hc, rfl⟩

theorem pendingSessions_pos (hj : j ∈ L.created) (hp : Pending L role j) :
    0 < pendingSessions L role :=
  Finset.countWhere_pos hj hp

theorem load_congr {own : Uuid → String} (hcreated : L'.created = L.created)
    (h : ∀ k, Charged L' role' k ↔ Charged L role k) :
    load own L' role' = load own L role := by
  funext v
  simp only [load, hcreated]
  exact Finset.countWhere_congr fun k _ => by rw [h k]

theorem load_gain (own : Uuid → String) (hcreated : L'.created = L.created) (hj : j ∈ L.created)
    (hbefore : ¬ Charged L role j) (hafter : Charged L' role' j)
    (h : ∀ k, k ≠ j → (Charged L' role' k ↔ Charged L role k)) (v : String) :
    load own L' role' v = load own L role v + if v = own j then 1 else 0 := by
  simp only [load, hcreated]
  split
  · subst v
    refine Finset.countWhere_gain hj (by simp [hbefore]) (by simp [hafter]) fun k _ hk => ?_
    rw [h k hk]
  · rename_i hv
    refine Finset.countWhere_congr fun k _ => ?_
    by_cases hk : k = j
    · subst hk; simp [Ne.symm hv]
    · rw [h k hk]

theorem load_lose (own : Uuid → String) (hcreated : L'.created = L.created) (hj : j ∈ L.created)
    (hbefore : Charged L role j) (hafter : ¬ Charged L' role' j)
    (h : ∀ k, k ≠ j → (Charged L' role' k ↔ Charged L role k)) (v : String) :
    load own L role v = load own L' role' v + if v = own j then 1 else 0 :=
  load_gain own hcreated.symm (hcreated ▸ hj) hafter hbefore (fun k hk => (h k hk).symm) v

theorem load_insert {own own' : Uuid → String} (hnew : ¬ Charged L role j)
    (hcreated : L'.created = insert j L.created) (hown : ∀ k, k ≠ j → own' k = own k)
    (h : ∀ k, Charged L' role' k ↔ Charged L role k) :
    load own' L' role' = load own L role := by
  funext v
  simp only [load, hcreated]
  rw [Finset.countWhere_insert (by simp [h, hnew])]
  refine Finset.countWhere_congr fun k _ => ?_
  by_cases hk : k = j
  · subst hk; simp [h, hnew]
  · rw [hown k hk, h k]

theorem pendingSessions_congr (hcreated : L'.created = L.created)
    (h : ∀ k, Pending L' role' k ↔ Pending L role k) :
    pendingSessions L' role' = pendingSessions L role := by
  simp only [pendingSessions, hcreated]
  exact Finset.countWhere_congr fun k _ => h k

theorem pendingSessions_gain (hcreated : L'.created = L.created) (hj : j ∈ L.created)
    (hbefore : ¬ Pending L role j) (hafter : Pending L' role' j)
    (h : ∀ k, k ≠ j → (Pending L' role' k ↔ Pending L role k)) :
    pendingSessions L' role' = pendingSessions L role + 1 := by
  simp only [pendingSessions, hcreated]
  exact Finset.countWhere_gain hj hbefore hafter fun k _ hk => h k hk

theorem pendingSessions_lose (hcreated : L'.created = L.created) (hj : j ∈ L.created)
    (hbefore : Pending L role j) (hafter : ¬ Pending L' role' j)
    (h : ∀ k, k ≠ j → (Pending L' role' k ↔ Pending L role k)) :
    pendingSessions L role = pendingSessions L' role' + 1 :=
  pendingSessions_gain hcreated.symm (hcreated ▸ hj) hafter hbefore fun k hk => (h k hk).symm

theorem pendingSessions_insert (hnew : ¬ Pending L role j)
    (hcreated : L'.created = insert j L.created)
    (h : ∀ k, Pending L' role' k ↔ Pending L role k) :
    pendingSessions L' role' = pendingSessions L role := by
  simp only [pendingSessions, hcreated]
  rw [Finset.countWhere_insert (by simp [h, hnew])]
  exact Finset.countWhere_congr fun k _ => h k

theorem Tallied.congr (h : Tallied config L role) (hcreated : L'.created = L.created)
    (hvisitor : L'.visitor = L.visitor) (hip : L'.ip = L.ip) (hlimits : L'.limits = L.limits)
    (hc : ∀ k, Charged L' role' k ↔ Charged L role k)
    (hp : ∀ k, Pending L' role' k ↔ Pending L role k) : Tallied config L' role' := by
  constructor
  · rw [hlimits, hvisitor, load_congr hcreated hc]; exact h.visitors
  · rw [hlimits, hip, load_congr hcreated hc]; exact h.ips
  · rw [hlimits, pendingSessions_congr hcreated hp]; exact h.pending
  · rw [hvisitor, load_congr hcreated hc]; exact h.visitorBound
  · rw [hip, load_congr hcreated hc]; exact h.ipBound

end

theorem Tallied.insert (h : Tallied config L role) (hk : Known L role) (fresh : n ∉ L.created)
    (hcreated : L'.created = insert n L.created)
    (hvisitor : L'.visitor = update L.visitor n v) (hip : L'.ip = update L.ip n i)
    (hlimits : L'.limits = L.limits)
    (hc : ∀ k, Charged L' role' k ↔ Charged L role k)
    (hp : ∀ k, Pending L' role' k ↔ Pending L role k) : Tallied config L' role' := by
  have hunknown : ∀ t, (role t).job ≠ some n := fun t ht => fresh (hk.roles t n ht)
  have hcharged : ¬ Charged L role n := by
    rintro (hreserved | ⟨t, ht⟩)
    · simp [hk.flags n fresh, Flags.new] at hreserved
    · obtain ⟨w, p, ht⟩ := Role.releases_eq_some.mp ht
      exact hunknown t (by simp [ht, Role.job])
  have hpending : ¬ Pending L role n := by
    rintro (hflag | ⟨t, ht⟩)
    · simp [hk.flags n fresh, Flags.new] at hflag
    · rcases Role.vacates_eq_some.mp ht with ht | ⟨w, ht⟩ <;>
        exact hunknown t (by simp [ht, Role.job])
  have hv : load L'.visitor L' role' = load L.visitor L role :=
    load_insert hcharged hcreated (fun k hk => by simp [hvisitor, hk]) hc
  have hi : load L'.ip L' role' = load L.ip L role :=
    load_insert hcharged hcreated (fun k hk => by simp [hip, hk]) hc
  constructor
  · rw [hlimits, hv]; exact h.visitors
  · rw [hlimits, hi]; exact h.ips
  · rw [hlimits, pendingSessions_insert hpending hcreated hp]; exact h.pending
  · rw [hv]; exact h.visitorBound
  · rw [hi]; exact h.ipBound

theorem Tallied.consume (h : Tallied config L role) (hj : j ∈ L.created)
    (huncharged : ¬ Charged L role j) (hcharged : Charged L' role' j)
    (hidle : ¬ Pending L role j) (hpending : Pending L' role' j)
    (visitor : (L.limits.byVisitor (L.visitor j)).getD 0 < config.visitorConcurrency)
    (ip : (L.limits.byIp (L.ip j)).getD 0 < config.ipConcurrency)
    (hc : ∀ k, k ≠ j → (Charged L' role' k ↔ Charged L role k))
    (hp : ∀ k, k ≠ j → (Pending L' role' k ↔ Pending L role k))
    (hcreated : L'.created = L.created) (hvisitor : L'.visitor = L.visitor) (hip : L'.ip = L.ip)
    (hlimits : L'.limits = {
      byVisitor := increment L.limits.byVisitor (L.visitor j)
      byIp := increment L.limits.byIp (L.ip j)
      pendingActivations := L.limits.pendingActivations + 1 }) : Tallied config L' role' := by
  have hgain := fun own => load_gain own hcreated hj huncharged hcharged hc
  have hbound : ∀ {own v n m}, Tally m (load own L role) → (m (own j)).getD 0 < n →
      load own L role v ≤ n → load own L' role' v ≤ n := by
    intro own v n m hm hlt hle
    rw [hgain own v]
    rw [hm.getD] at hlt
    split
    · subst v; exact hlt
    · exact hle
  constructor
  · rw [hlimits, hvisitor]; exact h.visitors.increment (hgain L.visitor)
  · rw [hlimits, hip]; exact h.ips.increment (hgain L.ip)
  · rw [hlimits, pendingSessions_gain hcreated hj hidle hpending hp, ← h.pending]
  · rw [hvisitor]; exact fun v => hbound h.visitors visitor (h.visitorBound v)
  · rw [hip]; exact fun v => hbound h.ips ip (h.ipBound v)

theorem Tallied.settle (h : Tallied config L role) (hj : j ∈ L.created)
    (hcharged : Charged L role j) (huncharged : ¬ Charged L' role' j)
    (hc : ∀ k, k ≠ j → (Charged L' role' k ↔ Charged L role k))
    (hcreated : L'.created = L.created) (hvisitor : L'.visitor = L.visitor) (hip : L'.ip = L.ip)
    (hlimits : L'.limits = {
      byVisitor := decrement L.limits.byVisitor (L.visitor j)
      byIp := decrement L.limits.byIp (L.ip j)
      pendingActivations := L'.limits.pendingActivations })
    (hpending : L'.limits.pendingActivations = pendingSessions L' role') :
    Tallied config L' role' := by
  have hlose := fun own => load_lose own hcreated hj hcharged huncharged hc
  constructor
  · rw [hlimits, hvisitor]; exact h.visitors.decrement (hlose L.visitor)
  · rw [hlimits, hip]; exact h.ips.decrement (hlose L.ip)
  · exact hpending
  · intro v
    rw [hvisitor]
    exact le_trans (by rw [hlose L.visitor v]; exact Nat.le_add_right _ _) (h.visitorBound v)
  · intro v
    rw [hip]
    exact le_trans (by rw [hlose L.ip v]; exact Nat.le_add_right _ _) (h.ipBound v)

theorem Tallied.move (h : Tallied config L role)
    (hreach : ReachableWhen (ledgerSystem config) D ⟨L, role⟩) (hr : role t = r)
    (hm : Move config t L r L' r') : Tallied config L' (update role t r') := by
  have hk : Known L role := known hreach
  have hcharged := charged_move hreach hr hm
  have hpending := pending_move hreach hr hm
  cases hm with
  | insert fresh room =>
    exact h.insert hk fresh rfl rfl rfl rfl
      (fun k => hcharged k (.inl (by simp)) (by simp [Role.releases]))
      (fun k => hpending k (.inl (by simp)) (by simp [Role.vacates]))
  | consume room visitor ip =>
    rename_i j
    have hj : j ∈ L.created := hk.roles t j (by simp [hr, Role.job])
    exact h.consume hj (admitting_uncharged hreach hr) (.inl (by simp))
      (admitting_not_pending hreach hr) (.inl (by simp)) visitor ip
      (fun k hkj => hcharged k (.inl (by simp [Ne.symm hkj])) (by simp [Role.releases]))
      (fun k hkj => hpending k (.inl (by simp [Ne.symm hkj])) (by simp [Role.vacates]))
      rfl rfl rfl rfl
  | enqueue =>
    rename_i j
    -- the task that pushes gives the pending slot back
    have hvacates : (role t).vacates = some j := by simp [hr, Role.vacates]
    have hj : j ∈ L.created := hk.roles t j (by simp [hr, Role.job])
    have hc := fun k => hcharged k (.inl (by simp)) (by simp [Role.releases])
    have hlose := pendingSessions_lose rfl hj (.inr ⟨t, hvacates⟩)
      (vacates_not_pending hreach hvacates (by simp [Role.vacates]))
      (fun k hkj => hpending k (.inl (by simp)) (by simp [Role.vacates, Ne.symm hkj]))
    refine ⟨load_congr rfl hc ▸ h.visitors, load_congr rfl hc ▸ h.ips, ?_,
      load_congr rfl hc ▸ h.visitorBound, load_congr rfl hc ▸ h.ipBound⟩
    exact Nat.sub_eq_of_eq_add (h.pending.trans hlose)
  | settle =>
    rename_i j w wasPending
    have hreleases : (role t).releases = some j := by simp [hr, Role.releases]
    have hj : j ∈ L.created := hk.roles t j (by simp [hr, Role.job])
    have huncharged : ¬ Charged L (update role t (.completing j (.freeWorker w))) j :=
      releases_uncharged hreach hreleases (by simp [Role.releases])
    refine h.settle hj (.inr ⟨t, hreleases⟩) huncharged
      (fun k hkj => hcharged k (.inl (by simp)) (by simp [Role.releases, Ne.symm hkj]))
      rfl rfl rfl rfl ?_
    cases wasPending with
    | false =>
      exact h.pending.trans (pendingSessions_congr rfl fun k =>
        hpending k (.inl (by simp)) (by simp [Role.vacates])).symm
    | true =>
      have hvacates : (role t).vacates = some j := by simp [hr, Role.vacates]
      have hlose := pendingSessions_lose rfl hj (.inr ⟨t, hvacates⟩)
        (vacates_not_pending hreach hvacates (by simp [Role.vacates]))
        (fun k hkj => hpending k (.inl (by simp)) (by simp [Role.vacates, Ne.symm hkj]))
      exact Nat.sub_eq_of_eq_add (h.pending.trans hlose)
  | _ =>
    exact h.congr rfl rfl rfl rfl
      (fun k => hcharged k (by first | exact .inr rfl | exact .inl (by simp)) (by simp [Role.releases]))
      (fun k => hpending k (by first | exact .inr rfl | exact .inl (by simp)) (by simp [Role.vacates]))

theorem tallied (h : ReachableWhen (ledgerSystem config) D o) :
    Tallied config o.ledger o.role := by
  refine ledger_invariant (I := Tallied config) h ?_ fun hr _ hi ht hm => hi.move hr ht hm
  have hload : ∀ own role v, load own .new role v = 0 := fun _ _ _ => Finset.countWhere_empty
  exact ⟨fun v => by rw [hload]; rfl, fun v => by rw [hload]; rfl, Finset.countWhere_empty.symm,
    fun v => by simp [hload], fun v => by simp [hload]⟩

/-! ### The step model -/

/-- The ticket of `j` was consumed and its release has not been applied to the
limit table. -/
def State.Charged (s : State) (j : Uuid) : Prop :=
  (s.shared.inner j).ticketConsumed = true ∧
    ((s.shared.inner j).limitsReleased = false ∨
      ∃ t e w p, (s.task t).pc = .completeSession j e (.releaseLimits w p))

/-- `j` passed `consume_ticket`, and neither its activation nor its release has
been applied to `pending_activations`. -/
def State.Pending (s : State) (j : Uuid) : Prop :=
  (s.shared.inner j).ticketConsumed = true ∧
    ((s.shared.inner j).pendingActivation = true ∨
      (∃ t, (s.task t).pc.activating = some j) ∨
      ∃ t e w, (s.task t).pc = .completeSession j e (.releaseLimits w true))

noncomputable def State.count (s : State) (P : Uuid → Prop) : Nat :=
  s.shared.created.countWhere P

theorem Pc.enqueueing_iff {pc : Pc} : pc.role cause = .enqueueing j ↔ pc.activating = some j := by
  cases pc
  case completeSession k e stage => cases stage <;> simp [Pc.role, Pc.activating]
  case done => cases cause <;> simp [Pc.role, Cause.after, Pc.activating]
  case unregisterWorkerCount job _ => cases job <;> simp [Pc.role, Pc.activating]
  case handleWorkerEventSession k payload =>
    rcases payload with _ | _ | _ | _ | _ | _ <;> simp [Pc.role, Pc.activating]
  all_goals simp [Pc.role, Pc.activating]

theorem State.releases_iff {s : State} : (s.overview.role t).releases = some j ↔
    ∃ e w p, (s.task t).pc = .completeSession j e (.releaseLimits w p) := by
  refine Role.releases_eq_some.trans ⟨?_, ?_⟩
  · rintro ⟨w, p, hr⟩
    obtain ⟨-, e, he⟩ := Pc.completing_iff.mp hr
    exact ⟨e, w, p, he⟩
  · rintro ⟨e, w, p, he⟩
    exact ⟨w, p, Pc.completing_iff.mpr ⟨by simp, e, he⟩⟩

theorem State.vacates_iff {s : State} : (s.overview.role t).vacates = some j ↔
    (s.task t).pc.activating = some j ∨
      ∃ e w, (s.task t).pc = .completeSession j e (.releaseLimits w true) := by
  refine Role.vacates_eq_some.trans (or_congr Pc.enqueueing_iff ⟨?_, ?_⟩)
  · rintro ⟨w, hr⟩
    obtain ⟨-, e, he⟩ := Pc.completing_iff.mp hr
    exact ⟨e, w, he⟩
  · rintro ⟨e, w, he⟩
    exact ⟨w, Pc.completing_iff.mpr ⟨by simp, e, he⟩⟩

theorem State.charged_iff (h : Reachable env s) (j : Uuid) :
    Executor.Charged s.overview.ledger s.overview.role j ↔ s.Charged j := by
  have ho := Reachable.overview h
  have hf : (s.shared.inner j).flags.Ok := flags_ok ho j
  constructor
  · rintro (hreserved | ⟨t, ht⟩)
    · obtain ⟨hc, hr⟩ := hf.reserved hreserved
      exact ⟨hc, .inl hr⟩
    · exact ⟨(hf.released ((releasing ho).released t j ht)).2, .inr ⟨t, State.releases_iff.mp ht⟩⟩
  · rintro ⟨hconsumed, hunreleased | ⟨t, ht⟩⟩
    · exact .inl ((hf.consumed hconsumed).resolve_right
        fun hr => Bool.false_ne_true (hunreleased.symm.trans hr))
    · exact .inr ⟨t, State.releases_iff.mpr ht⟩

theorem State.pending_iff (h : Reachable env s) (j : Uuid) :
    Executor.Pending s.overview.ledger s.overview.role j ↔ s.Pending j := by
  have ho := Reachable.overview h
  have hf : (s.shared.inner j).flags.Ok := flags_ok ho j
  constructor
  · rintro (hpending | ⟨t, ht⟩)
    · exact ⟨(hf.reserved (hf.pending hpending).1).1, .inl hpending⟩
    · rcases State.vacates_iff.mp ht with hact | hrel
      · have hconnected := holds_connected ho (t := t) (j := j)
          ((congrArg Role.holds (Pc.enqueueing_iff.mpr hact)).trans rfl)
        exact ⟨hf.connected hconnected, .inr (.inl ⟨t, hact⟩)⟩
      · obtain ⟨e, w, he⟩ := hrel
        have hreleased := (releasing ho).released t j (State.releases_iff.mpr ⟨e, w, true, he⟩)
        exact ⟨(hf.released hreleased).2, .inr (.inr ⟨t, e, w, he⟩)⟩
  · rintro ⟨-, hpending | ⟨t, hact⟩ | ⟨t, hrel⟩⟩
    · exact .inl hpending
    · exact .inr ⟨t, State.vacates_iff.mpr (.inl hact)⟩
    · exact .inr ⟨t, State.vacates_iff.mpr (.inr hrel)⟩

theorem State.load_eq (h : Reachable env s) (own : Uuid → String) (v : String) :
    load own s.overview.ledger s.overview.role v = s.count fun j => s.Charged j ∧ own j = v :=
  Finset.countWhere_congr fun j _ => by rw [State.charged_iff h]

theorem State.pendingSessions_eq (h : Reachable env s) :
    pendingSessions s.overview.ledger s.overview.role = s.count s.Pending :=
  Finset.countWhere_congr fun j _ => State.pending_iff h j

/-- Nothing is left of a finished session in the limit table once no operation
is in progress. -/
theorem State.Quiet.settled (hq : s.Quiet) (h : Reachable env s)
    (hf : (s.shared.inner j).finished = true) :
    ¬ Executor.Charged s.overview.ledger s.overview.role j ∧
      ¬ Executor.Pending s.overview.ledger s.overview.role j := by
  have ho := Reachable.overview h
  have hreserved : (s.overview.ledger.flags j).limitsReserved ≠ true := fun hr => by
    obtain ⟨t, ht⟩ := (releasing ho).reserved j hr hf
    rcases hq.role t with hrole | hrole | hrole <;> simp [hrole, Role.willRelease] at ht
  constructor
  · rintro (hr | ⟨t, ht⟩)
    · exact hreserved hr
    · rcases hq.role t with hrole | hrole | hrole <;> simp [hrole, Role.releases] at ht
  · rintro (hp | ⟨t, ht⟩)
    · exact hreserved ((flags_ok ho j).pending hp).1
    · rcases hq.role t with hrole | hrole | hrole <;> simp [hrole, Role.vacates] at ht

theorem limits_exact (h : Reachable env s) :
    (∀ v, (s.shared.limits.byVisitor v).getD 0 =
        s.count (fun j => s.Charged j ∧ (s.shared.data j).visitorId = v) ∧
      (s.shared.limits.byVisitor v).getD 0 ≤ env.config.visitorConcurrency ∧
      s.shared.limits.byVisitor v ≠ some 0) ∧
    (∀ ip, (s.shared.limits.byIp ip).getD 0 =
        s.count (fun j => s.Charged j ∧ (s.shared.data j).clientIp = ip) ∧
      (s.shared.limits.byIp ip).getD 0 ≤ env.config.ipConcurrency ∧
      s.shared.limits.byIp ip ≠ some 0) ∧
    s.shared.limits.pendingActivations = s.count s.Pending ∧
    (∀ t j, (s.task t).pc = .activateSessionLimits j → 0 < s.shared.limits.pendingActivations) ∧
    (∀ t j e w p, (s.task t).pc = .completeSession j e (.releaseLimits w p) →
      (∃ n, s.shared.limits.byVisitor (s.shared.data j).visitorId = some (n + 1)) ∧
      (∃ n, s.shared.limits.byIp (s.shared.data j).clientIp = some (n + 1)) ∧
      (p = true → 0 < s.shared.limits.pendingActivations)) ∧
    ((∀ j ∈ s.shared.created, (s.shared.inner j).finished = true) → s.Quiet →
      (∀ v, s.shared.limits.byVisitor v = none) ∧ (∀ ip, s.shared.limits.byIp ip = none) ∧
      s.shared.limits.pendingActivations = 0) := by
  have ho := Reachable.overview h
  obtain ⟨visitors, ips, pending, visitorBound, ipBound⟩ := tallied ho
  have hcreated : ∀ t j, (s.overview.role t).job = some j → j ∈ s.overview.ledger.created :=
    (known ho).roles
  have hvacates : ∀ t j, (s.overview.role t).vacates = some j →
      0 < s.shared.limits.pendingActivations := fun t j ht =>
    lt_of_lt_of_eq (pendingSessions_pos (hcreated t j (Role.job_of_vacates ht)) (.inr ⟨t, ht⟩))
      pending.symm
  refine ⟨fun v => ⟨?_, ?_, visitors.ne_zero v⟩, fun ip => ⟨?_, ?_, ips.ne_zero ip⟩, ?_, ?_, ?_, ?_⟩
  · exact (visitors.getD v).trans (State.load_eq h _ v)
  · exact (visitors.getD v).trans_le (visitorBound v)
  · exact (ips.getD ip).trans (State.load_eq h _ ip)
  · exact (ips.getD ip).trans_le (ipBound ip)
  · exact pending.trans (State.pendingSessions_eq h)
  · intro t j hpc
    exact hvacates t j (State.vacates_iff.mpr (.inl (by rw [hpc]; rfl)))
  · intro t j e w p hpc
    have hreleases : (s.overview.role t).releases = some j :=
      State.releases_iff.mpr ⟨e, w, p, hpc⟩
    have hj := hcreated t j (Role.job_of_releases hreleases)
    refine ⟨visitors.pos (load_pos _ hj (.inr ⟨t, hreleases⟩)),
      ips.pos (load_pos _ hj (.inr ⟨t, hreleases⟩)), ?_⟩
    rintro rfl
    exact hvacates t j (State.vacates_iff.mpr (.inr ⟨e, w, hpc⟩))
  · intro hall hq
    -- a finished session is charged only while a task is releasing it
    have hload : ∀ own v, load own s.overview.ledger s.overview.role v = 0 := fun own v =>
      Finset.countWhere_eq_zero fun j hj hc => (hq.settled h (hall j hj)).1 hc.1
    exact ⟨fun v => (visitors v).trans (if_pos (hload _ v)),
      fun ip => (ips ip).trans (if_pos (hload _ ip)),
      pending.trans (Finset.countWhere_eq_zero fun j hj => (hq.settled h (hall j hj)).2)⟩

/-- With one session activated, its visitor is charged once and nothing is pending. -/
theorem activated_session_is_charged :
    ∃ s, Reachable .forTest s ∧ s.shared.limits.byVisitor "7" = some 1 ∧
      s.count (fun j => s.Charged j ∧ (s.shared.data j).visitorId = "7") = 1 := by
  obtain ⟨s, hs, hp⟩ := Transition.reachable_of_execute (f := State.step .forTest) (i := .new)
    (Schedule.submit 0 [7]) (p := fun s => s.shared.limits.byVisitor "7" = some 1) (by decide)
  have hp := of_decide_eq_true hp
  exact ⟨s, hs, hp, ((limits_exact hs).1 "7").1.symm.trans (by simp [hp])⟩

end SmartC.Executor
