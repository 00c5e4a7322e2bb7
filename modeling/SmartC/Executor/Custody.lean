import SmartC.Executor.Refinement
import SmartC.Executor.Sessions

/-!
# Custody: every live job is somewhere, and in one place only

A job is carried by one task, waits in the queue, or was sent on one
connection. `Placed` says so by giving every job a single place, which rules
out that it is queued, dispatched or assigned twice. `Attended` says that a job
which was activated and has not finished is never forgotten.
-/

namespace SmartC.Executor

open Function (update)
open Transition (ReachableWhen execute execute_induction)

/-! ### Connections -/

structure Wired (L : Ledger) : Prop where
  known : ∀ w h, L.workers w = some h → h.connectionId ∈ L.connections
  distinct : ∀ w w' h h', L.workers w = some h → L.workers w' = some h' →
    h.connectionId = h'.connectionId → w = w'
  fresh : ∀ c, c ∉ L.connections → L.assigned c = []

theorem Wired.move (h : Wired L) (hm : Move config t L r L' r') : Wired L' := by
  obtain ⟨known, distinct, fresh⟩ := h
  cases hm
  case lose | loseBusy | free | register | assign => constructor <;> grind
  all_goals exact ⟨known, distinct, fresh⟩

theorem wired (h : ReachableWhen (ledgerSystem config) D o) : Wired o.ledger :=
  ledger_invariant (I := fun L _ => Wired L) h
    ⟨by simp [Ledger.new], by simp [Ledger.new], fun _ _ => rfl⟩ fun _ _ hi _ hm => hi.move hm

/-! ### The place of a job -/

/-- The job a task carries from one place to the next. -/
@[grind]
def Role.holds : Role → Option Uuid
  | .enqueueing j | .popped j | .assigning j | .returning j _ => some j
  | .idle | .counting _ | .checking _ | .admitting _ | .notifying | .awaiting
  | .parked | .reporting _ | .stopping _ | .ending .. | .completing .. => none

inductive Place
  | outside
  | held (t : Tid)
  | queued
  | assigned (c : Uuid)
  | dropped
  deriving DecidableEq

structure Placed (L : Ledger) (role : Tid → Role) (place : Uuid → Place) : Prop where
  held : ∀ t j, (role t).holds = some j ↔ place j = .held t
  queued : ∀ j, L.queue.count j = if place j = .queued then 1 else 0
  assigned : ∀ c j, (L.assigned c).count j = if place j = .assigned c then 1 else 0
  current : ∀ w h j, L.workers w = some h → h.currentJob = some j →
    place j = .assigned h.connectionId
  outside : ∀ j, (L.flags j).socketConnected = false → place j = .outside

section

variable {config : AppConfig} {L L' : Ledger} {role : Tid → Role} {place : Uuid → Place}
  {t : Tid} {r r' : Role}

theorem Placed.frame (h : Placed L role place) (hr : role t = r) (hholds : r'.holds = r.holds)
    (hqueue : L'.queue = L.queue) (hassigned : ∀ c, L'.assigned c = L.assigned c)
    (hworkers : ∀ w h j, L'.workers w = some h → h.currentJob = some j → L.workers w = some h)
    (hflags : ∀ j, (L'.flags j).socketConnected = false → (L.flags j).socketConnected = false) :
    Placed L' (update role t r') place where
  held u j := by
    rw [← h.held u j]
    by_cases hut : u = t
    · subst hut; rw [Function.update_self, hholds, hr]
    · rw [Function.update_of_ne hut]
  queued j := hqueue ▸ h.queued j
  assigned c j := hassigned c ▸ h.assigned c j
  current w hd j hw hj := h.current w hd j (hworkers w hd j hw hj) hj
  outside j hj := h.outside j (hflags j hj)

theorem Placed.relocate (h : Placed L role place) (hr : role t = r) (j : Uuid) (p : Place)
    (hfrom : ∀ u, place j = .held u → u = t) (hto : ∀ u, p = .held u → u = t)
    (hbefore : ∀ k, r.holds = some k → k = j)
    (hafter : ∀ k, r'.holds = some k ↔ k = j ∧ p = .held t)
    (hqueue : ∀ k, L'.queue.count k =
      if k = j then (if p = .queued then 1 else 0) else L.queue.count k)
    (hassigned : ∀ c k, (L'.assigned c).count k =
      if k = j then (if p = .assigned c then 1 else 0) else (L.assigned c).count k)
    (hworkers : ∀ w h k, L'.workers w = some h → h.currentJob = some k →
      k = j ∧ p = .assigned h.connectionId ∨ k ≠ j ∧ L.workers w = some h)
    (hflags : ∀ k, (L'.flags k).socketConnected = false →
      k ≠ j ∧ (L.flags k).socketConnected = false) :
    Placed L' (update role t r') (update place j p) where
  held u k := by
    have hheld := h.held u k
    by_cases hut : u = t
    · subst hut
      rw [Function.update_self, hafter k]
      by_cases hk : k = j
      · subst hk; simp
      · rw [Function.update_of_ne hk, ← hheld, hr]
        exact iff_of_false (fun ha => hk ha.1) (fun hb => hk (hbefore k hb))
    · rw [Function.update_of_ne hut, hheld]
      by_cases hk : k = j
      · subst hk
        rw [Function.update_self]
        exact iff_of_false (fun ha => hut (hfrom u ha)) (fun hb => hut (hto u hb))
      · rw [Function.update_of_ne hk]
  queued k := by
    rw [hqueue k]
    by_cases hk : k = j
    · subst hk; simp
    · simpa [hk] using h.queued k
  assigned c k := by
    rw [hassigned c k]
    by_cases hk : k = j
    · subst hk; simp
    · simpa [hk] using h.assigned c k
  current w hd k hw hj := by
    rcases hworkers w hd k hw hj with ⟨rfl, hp⟩ | ⟨hk, hw⟩
    · simpa using hp
    · simpa [hk] using h.current w hd k hw hj
  outside k hk := by
    obtain ⟨hne, hk⟩ := hflags k hk
    simpa [hne] using h.outside k hk

theorem Placed.connected (h : Placed L role place) (hj : place j ≠ .outside) :
    ∀ k, (L.flags k).socketConnected = false → k ≠ j := by
  rintro k hk rfl
  exact hj (h.outside k hk)

theorem Placed.unemployed (h : Placed L role place) (hj : ∀ c, place j ≠ .assigned c) :
    ∀ w hd k, L.workers w = some hd → hd.currentJob = some k → k ≠ j := by
  rintro w hd k hw hk rfl
  exact hj _ (h.current w hd k hw hk)

theorem Placed.queue_keep {p : Place} (h : Placed L role place) (hj : place j ≠ .queued)
    (hp : p ≠ .queued) (k : Uuid) : L.queue.count k =
      if k = j then (if p = .queued then 1 else 0) else L.queue.count k := by
  by_cases hk : k = j
  · subst hk; simp [h.queued k, hj, hp]
  · simp [hk]

theorem Placed.assigned_keep {p : Place} (h : Placed L role place)
    (hj : ∀ c, place j ≠ .assigned c) (hp : ∀ c, p ≠ .assigned c) (c k : Uuid) : (L.assigned c).count k =
      if k = j then (if p = .assigned c then 1 else 0) else (L.assigned c).count k := by
  by_cases hk : k = j
  · subst hk; simp [h.assigned c k, hj, hp]
  · simp [hk]

theorem Placed.enqueue (h : Placed L role place) (hr : role t = r) (hj : r.holds = some j)
    (hafter : r'.holds = none) (hqueue : L'.queue.Perm (j :: L.queue))
    (hassigned : L'.assigned = L.assigned) (hworkers : L'.workers = L.workers)
    (hflags : L'.flags = L.flags) :
    Placed L' (update role t r') (update place j .queued) := by
  have hplace : place j = .held t := (h.held t j).mp (hr ▸ hj)
  refine h.relocate hr j .queued (by simp [hplace]) (by simp) (by simp [hj]) (by simp [hafter])
    (fun k => ?_) (fun c k => ?_) (fun w hd k hw hk => ?_) (fun k hk => ?_)
  · rw [hqueue.count_eq k]
    by_cases hk : k = j
    · subst hk; simp [h.queued k, hplace]
    · simp [hk, Ne.symm hk]
  · rw [hassigned]
    exact h.assigned_keep (by simp [hplace]) (by simp) c k
  · rw [hworkers] at hw
    exact .inr ⟨h.unemployed (by simp [hplace]) w hd k hw hk, hw⟩
  · rw [hflags] at hk
    exact ⟨h.connected (by simp [hplace]) k hk, hk⟩

theorem Placed.move_activate (h : Placed L role place) (hr : role t = .idle) (hj : place j = .outside)
    (hflags : ∀ k, (L'.flags k).socketConnected = false →
      k ≠ j ∧ (L.flags k).socketConnected = false)
    (hqueue : L'.queue = L.queue) (hassigned : L'.assigned = L.assigned)
    (hworkers : L'.workers = L.workers) :
    Placed L' (update role t (.enqueueing j)) (update place j (.held t)) := by
  refine h.relocate hr j (.held t) (by simp [hj]) (by simp) nofun (by simp [Role.holds, eq_comm])
    (fun k => ?_) (fun c k => ?_) (fun w hd k hw hk => ?_) hflags
  · rw [hqueue]
    exact h.queue_keep (by simp [hj]) (by simp) k
  · rw [hassigned]
    exact h.assigned_keep (by simp [hj]) (by simp) c k
  · rw [hworkers] at hw
    exact .inr ⟨h.unemployed (by simp [hj]) w hd k hw hk, hw⟩

theorem Placed.move_pop (h : Placed L role place) (hr : role t = .idle) (head : L.queue = j :: rest) :
    Placed { L with queue := rest } (update role t (.popped j)) (update place j (.held t)) := by
  have hqueued := h.queued j
  have hplace : place j = .queued := by
    by_contra hne
    simp [head, hne] at hqueued
  refine h.relocate hr j (.held t) (by simp [hplace]) (by simp) nofun
    (by simp [Role.holds, eq_comm]) (fun k => ?_)
    (fun c k => h.assigned_keep (by simp [hplace]) (by simp) c k)
    (fun w hd k hw hk => .inr ⟨h.unemployed (by simp [hplace]) w hd k hw hk, hw⟩)
    (fun k hk => ⟨h.connected (by simp [hplace]) k hk, hk⟩)
  by_cases hk : k = j
  · subst hk; simpa [head, hplace] using hqueued
  · simp [head, hk, Ne.symm hk]

theorem Placed.move_drop (h : Placed L role place) (hr : role t = .popped j) :
    Placed L (update role t .idle) (update place j .dropped) := by
  have hplace : place j = .held t := (h.held t j).mp (by rw [hr]; rfl)
  exact h.relocate hr j .dropped (by simp [hplace]) (by simp) (by simp [Role.holds])
    (by simp [Role.holds]) (fun k => h.queue_keep (by simp [hplace]) (by simp) k)
    (fun c k => h.assigned_keep (by simp [hplace]) (by simp) c k)
    (fun w hd k hw hk => .inr ⟨h.unemployed (by simp [hplace]) w hd k hw hk, hw⟩)
    (fun k hk => ⟨h.connected (by simp [hplace]) k hk, hk⟩)

theorem Placed.move_unqueue (h : Placed L role place) (hr : role t = .stopping j) :
    ∃ place', Placed { L with queue := L.queue.filter (· ≠ j) }
      (update role t (.ending .stopped j)) place' := by
  by_cases hplace : place j = .queued
  · refine ⟨_, h.relocate hr j .dropped (by simp [hplace]) (by simp) nofun (by simp [Role.holds])
      (fun k => ?_) (fun c k => h.assigned_keep (by simp [hplace]) (by simp) c k)
      (fun w hd k hw hk => .inr ⟨h.unemployed (by simp [hplace]) w hd k hw hk, hw⟩)
      (fun k hk => ⟨h.connected (by simp [hplace]) k hk, hk⟩)⟩
    simpa using List.count_filter_ne L.queue j k
  · have hmem : j ∉ L.queue := List.count_eq_zero.mp ((h.queued j).trans (if_neg hplace))
    have hqueue : L.queue.filter (· ≠ j) = L.queue :=
      List.filter_eq_self.mpr fun k hk => by simpa using ne_of_mem_of_not_mem hk hmem
    exact ⟨place, h.frame hr rfl hqueue (fun _ => rfl) (fun _ _ _ hw _ => hw) (fun _ hj => hj)⟩

theorem Placed.move_assign (h : Placed L role place) (hr : role t = .assigning j)
    (worker : L.workers w = some hd)
    (hassigned : L'.assigned = update L.assigned hd.connectionId (L.assigned hd.connectionId ++ [j]))
    (hworkers : L'.workers = update L.workers w (some { hd with currentJob := some j }))
    (hqueue : L'.queue = L.queue)
    (hflags : ∀ k, (L'.flags k).socketConnected = (L.flags k).socketConnected) :
    Placed L' (update role t .idle) (update place j (.assigned hd.connectionId)) := by
  have hplace : place j = .held t := (h.held t j).mp (by rw [hr]; rfl)
  refine h.relocate hr j _ (by simp [hplace]) (by simp) (by simp [Role.holds]) (by simp [Role.holds])
    (fun k => ?_) (fun c k => ?_) (fun w' hd' k hw hk => ?_) (fun k hk => ?_)
  · rw [hqueue]
    exact h.queue_keep (by simp [hplace]) (by simp) k
  · have hcount := h.assigned c j
    rw [hassigned]
    grind
  · rw [hworkers] at hw
    by_cases hww : w' = w
    · subst hww
      rw [Function.update_self] at hw
      cases hw
      cases hk
      exact .inl ⟨rfl, rfl⟩
    · have hw : L.workers w' = some hd' := by simpa [hww] using hw
      exact .inr ⟨h.unemployed (by simp [hplace]) w' hd' k hw hk, hw⟩
  · rw [hflags k] at hk
    exact ⟨h.connected (by simp [hplace]) k hk, hk⟩

theorem Placed.move (h : Placed L role place) (hk : Known L role) (hw : Wired L)
    (hf : ∀ j, (L.flags j).Ok) (hr : role t = r) (hm : Move config t L r L' r') :
    ∃ place', Placed L' (update role t r') place' := by
  cases hm
  case activate j known free pending live =>
    exact ⟨_, h.move_activate hr (h.outside j ((hf j).pending pending).2) (by grind) rfl rfl rfl⟩
  case enqueue j =>
    exact ⟨_, h.enqueue hr rfl rfl (List.perm_append_singleton ..) rfl rfl rfl⟩
  case putBack j | retry j => exact ⟨_, h.enqueue hr rfl rfl (.refl _) rfl rfl rfl⟩
  case pop head => exact ⟨_, h.move_pop hr head⟩
  case drop => exact ⟨_, h.move_drop hr⟩
  case unqueue => exact h.move_unqueue hr
  case assign worker _ => exact ⟨_, h.move_assign hr worker rfl rfl rfl (by grind)⟩
  case insert fresh room =>
    have hnew := hk.flags _ fresh
    exact ⟨place, h.frame hr rfl rfl (fun _ => rfl) (fun _ _ _ hw _ => hw) (by grind)⟩
  case register fresh free =>
    have hnone := hw.fresh _ fresh
    exact ⟨place, h.frame hr rfl rfl (by grind) (by grind) (fun _ hj => hj)⟩
  case lose | loseBusy | free =>
    exact ⟨place, h.frame hr rfl rfl (fun _ => rfl) (by grind) (fun _ hj => hj)⟩
  case consume | finish | release =>
    exact ⟨place, h.frame hr rfl rfl (fun _ => rfl) (fun _ _ _ hw _ => hw) (by grind)⟩
  all_goals
    exact ⟨place, h.frame hr rfl rfl (fun _ => rfl) (fun _ _ _ hw _ => hw) (fun _ hj => hj)⟩

end

theorem placed (h : ReachableWhen (ledgerSystem config) D o) :
    ∃ place, Placed o.ledger o.role place := by
  refine ledger_invariant (I := fun L role => ∃ place, Placed L role place) h
    ⟨fun _ => .outside, ?_, ?_, ?_, ?_, ?_⟩ fun hr _ hi ht hm => ?_
  iterate 5 simp [Ledger.new, Role.holds]
  obtain ⟨place, hi⟩ := hi
  exact hi.move (known hr) (wired hr) (flags_ok hr) ht hm

/-! ### No live job is lost -/

@[grind]
def Role.ends : Role → Option Uuid
  | .stopping j | .ending _ j => some j
  | .idle | .counting _ | .checking _ | .admitting _ | .enqueueing _ | .notifying | .popped _
  | .assigning _ | .returning .. | .awaiting | .parked | .reporting _ | .completing .. => none

def Employed (workers : String → Option Handle) (j : Uuid) : Prop :=
  ∃ w h, workers w = some h ∧ h.currentJob = some j

def Attended (L : Ledger) (role : Tid → Role) (j : Uuid) : Prop :=
  j ∈ L.queue ∨ Employed L.workers j ∨ ∃ t, (role t).holds = some j ∨ (role t).ends = some j

section

variable {config : AppConfig} {L L' : Ledger} {role : Tid → Role} {t : Tid} {r r' : Role} {j : Uuid}

theorem Employed.update (he : Employed L.workers j) (w : String) (x : Option Handle)
    (hw : ∀ h, L.workers w = some h → h.currentJob ≠ some j) : Employed (update L.workers w x) j := by
  obtain ⟨w', h, hw', hj⟩ := he
  have hne : w' ≠ w := by rintro rfl; exact hw h hw' hj
  exact ⟨w', h, by simpa [hne] using hw', hj⟩

theorem Role.job_of_attends {r : Role} (h : r.holds = some j ∨ r.ends = some j) :
    r.job = some j := by
  cases r <;> rcases h with h | h <;> first | exact h | cases h

theorem Attended.of_role (h : r'.holds = some j ∨ r'.ends = some j) :
    Attended L' (update role t r') j :=
  .inr (.inr ⟨t, by simpa using h⟩)

theorem Attended.move (h : Attended L role j) (hr : role t = r)
    (hqueue : j ∈ L.queue → Attended L' (update role t r') j)
    (hworker : Employed L.workers j → Attended L' (update role t r') j)
    (hself : r.holds = some j ∨ r.ends = some j → Attended L' (update role t r') j) :
    Attended L' (update role t r') j := by
  rcases h with hq | hw | ⟨u, hu⟩
  · exact hqueue hq
  · exact hworker hw
  · by_cases hut : u = t
    · subst hut; exact hself (hr ▸ hu)
    · exact .inr (.inr ⟨u, by simpa [hut] using hu⟩)

/-- A live job stays attended. What it needs from the other invariants: a
session that left the map is finished, and so is one that is being completed. -/
theorem attended_move (h : ∀ j, (L.flags j).socketConnected = true →
      (L.flags j).finished = false → Attended L role j)
    (hgone : ∀ j, j ∉ L.sessions → j ∈ L.created → (L.flags j).finished = true)
    (hk : Known L role)
    (hc : ∀ t j stage, role t = .completing j stage → (L.flags j).finished = true)
    (hr : role t = r) (hm : Move config t L r L' r') (j : Uuid)
    (hconnected : (L'.flags j).socketConnected = true) (hlive : (L'.flags j).finished = false) :
    Attended L' (update role t r') j := by
  have hknown : ∀ k, r.job = some k → k ∈ L.created := hr ▸ hk.roles t
  have hj := h j
  -- The places a job keeps when the move leaves the queue and the workers alone.
  have hqueue : L'.queue = L.queue → j ∈ L.queue → Attended L' (update role t r') j :=
    fun hq hj => .inl (hq ▸ hj)
  have hworker : L'.workers = L.workers → Employed L.workers j → Attended L' (update role t r') j :=
    fun hw hj => .inr (.inl (hw ▸ hj))
  cases hm
  case insert id v i fresh room =>
    have hne : j ≠ id := by rintro rfl; simp [Flags.new] at hconnected
    simp only [Function.update_of_ne hne] at hconnected hlive
    exact (hj hconnected hlive).move hr (hqueue rfl) (hworker rfl) (by simp [Role.holds, Role.ends])
  case activate k known free pending live =>
    by_cases hkj : j = k
    · exact .of_role (.inl (congrArg some hkj.symm))
    · simp only [Function.update_of_ne hkj] at hconnected hlive
      exact (hj hconnected hlive).move hr (hqueue rfl) (hworker rfl)
        (by simp [Role.holds, Role.ends])
  case enqueue k =>
    refine (hj hconnected hlive).move hr (fun hq => .inl (by simp [hq])) (hworker rfl) fun hs => ?_
    obtain rfl := Option.some.inj (Role.job_of_attends hs)
    exact .inl (by simp)
  case unqueue k =>
    by_cases hkj : j = k
    · exact .of_role (.inr (congrArg some hkj.symm))
    · exact (hj hconnected hlive).move hr (fun hq => .inl (by simp [hq, hkj])) (hworker rfl)
        (fun hs => .of_role hs)
  case pop k rest ht head =>
    refine (hj hconnected hlive).move hr (fun hq => ?_) (hworker rfl)
      (by simp [Role.holds, Role.ends])
    rw [head] at hq
    rcases List.mem_cons.mp hq with rfl | hq
    · exact .of_role (.inl rfl)
    · exact .inl hq
  case putBack k | retry k =>
    refine (hj hconnected hlive).move hr (fun hq => .inl (by simp [hq])) (hworker rfl) fun hs => ?_
    obtain rfl := Option.some.inj (Role.job_of_attends hs)
    exact .inl (by simp)
  case drop k ended =>
    -- Only a finished session leaves the dispatcher's hands for good.
    refine (hj hconnected hlive).move hr (hqueue rfl) (hworker rfl) fun hs => ?_
    obtain rfl := Option.some.inj (Role.job_of_attends hs)
    have hfinished := ended.elim (fun hs => hgone k hs (hknown k rfl)) id
    exact absurd (hlive.symm.trans hfinished) Bool.false_ne_true
  case lostAlready k gone =>
    refine (hj hconnected hlive).move hr (hqueue rfl) (hworker rfl) fun hs => ?_
    obtain rfl := Option.some.inj (Role.job_of_attends hs)
    have hfinished := gone.elim (fun hs => hgone k hs (hknown k rfl)) id
    exact absurd (hlive.symm.trans hfinished) Bool.false_ne_true
  case finishAgain cause k kept ended =>
    refine (hj hconnected hlive).move hr (hqueue rfl) (hworker rfl) fun hs => ?_
    obtain rfl := Option.some.inj (Role.job_of_attends hs)
    exact absurd (hlive.symm.trans ended) Bool.false_ne_true
  case finish cause k free live =>
    have hne : j ≠ k := by rintro rfl; simp at hlive
    simp only [Function.update_of_ne hne] at hconnected hlive
    exact (hj hconnected hlive).move hr (hqueue rfl) (hworker rfl)
      (by simp [Role.holds, Role.ends, hne.symm])
  case assign k w hd room worker idle =>
    by_cases hkj : j = k
    · exact .inr (.inl ⟨w, _, Function.update_self .., congrArg some hkj.symm⟩)
    · simp only [Function.update_of_ne hkj] at hconnected hlive
      refine (hj hconnected hlive).move hr (hqueue rfl) (fun he => .inr (.inl (he.update w _ ?_)))
        (by simp [Role.holds, Role.ends, Ne.symm hkj])
      simp [worker, idle]
  case lose w hd worker idle =>
    refine (hj hconnected hlive).move hr (hqueue rfl) (fun he => .inr (.inl (he.update w _ ?_)))
      (by simp [Role.holds, Role.ends])
    simp [worker, idle]
  case loseBusy w hd k worker current =>
    by_cases hkj : j = k
    · exact .of_role (.inr (congrArg some hkj.symm))
    · refine (hj hconnected hlive).move hr (hqueue rfl) (fun he => .inr (.inl (he.update w _ ?_)))
        (by simp [Role.holds, Role.ends])
      simp [worker, current, Ne.symm hkj]
  case free k w hd worker current =>
    -- The session of the worker that is freed is finished, so it is not `j`.
    have hne : k ≠ j := by
      rintro rfl
      exact Bool.false_ne_true (hlive.symm.trans (hc t k _ hr))
    refine (hj hconnected hlive).move hr (hqueue rfl) (fun he => .inr (.inl (he.update w _ ?_)))
      (by simp [Role.holds, Role.ends])
    simp [worker, current, hne]
  case register w c fresh free =>
    refine (hj hconnected hlive).move hr (hqueue rfl) (fun he => .inr (.inl (he.update w _ ?_)))
      (by simp [Role.holds, Role.ends])
    simp [free]
  case consume k room visitor ip | release k w free unreleased reserved =>
    have hflags : (L.flags j).socketConnected = true ∧ (L.flags j).finished = false := by grind
    exact (hj hflags.1 hflags.2).move hr (hqueue rfl) (hworker rfl) (by simp [Role.holds, Role.ends])
  all_goals
    exact (hj hconnected hlive).move hr (hqueue rfl) (hworker rfl)
      (by first | exact fun hs => .of_role hs | simp [Role.holds, Role.ends])

end

theorem gone_finished (h : ReachableWhen (ledgerSystem config) D o) (hs : j ∉ o.ledger.sessions)
    (hj : j ∈ o.ledger.created) : (o.ledger.flags j).finished = true := by
  obtain ⟨progress, hp⟩ := progressed h
  have hrank := hp.sessions j
  have hfinished := hp.finished j
  grind

theorem attended (h : ReachableWhen (ledgerSystem config) D o) (j : Uuid)
    (hconnected : (o.ledger.flags j).socketConnected = true)
    (hlive : (o.ledger.flags j).finished = false) : Attended o.ledger o.role j :=
  ledger_invariant (I := fun L role => ∀ j, (L.flags j).socketConnected = true →
      (L.flags j).finished = false → Attended L role j) h
    (fun j hj => by simp [Ledger.new, Flags.new] at hj)
    (fun hr _ hi ht hm => attended_move hi (fun _ => gone_finished hr) (known hr)
      (fun _ _ _ => completing_finished hr) ht hm) j hconnected hlive

/-! ### The dispatcher -/

@[grind]
def Role.dispatches : Role → Bool
  | .popped _ | .assigning _ | .returning .. | .awaiting | .parked => true
  | .idle | .counting _ | .checking _ | .admitting _ | .enqueueing _ | .notifying | .reporting _
  | .stopping _ | .ending .. | .completing .. => false

theorem Move.dispatches (hm : Move config t L r L' r') (h : r'.dispatches = true) :
    t = .dispatcher ∨ r.dispatches = true := by
  cases hm
  case pop ht _ => exact .inl ht
  case empty ht _ => exact .inl ht
  all_goals first | exact .inr rfl | exact absurd h Bool.false_ne_true

theorem dispatches_move (h : ∀ t, (role t).dispatches = true → t = .dispatcher) (hr : role t = r)
    (hm : Move config t L r L' r') (u : Tid) (hu : (update role t r' u).dispatches = true) :
    u = .dispatcher := by
  by_cases hut : u = t
  · subst hut
    rw [Function.update_self] at hu
    exact (hm.dispatches hu).elim id fun hd => h u (hr ▸ hd)
  · exact h u (by simpa [hut] using hu)

theorem dispatches_dispatcher (h : ReachableWhen (ledgerSystem config) D o) :
    ∀ t, (o.role t).dispatches = true → t = .dispatcher :=
  ledger_invariant (I := fun _ role => ∀ t, (role t).dispatches = true → t = .dispatcher) h
    (by simp [Role.dispatches]) fun _ _ hi hr hm => dispatches_move hi hr hm

/-! ### Assignments are final -/

theorem Move.assigned_mono (hm : Move config t L r L' r') (hw : Wired L)
    (hj : j ∈ L.assigned c) : j ∈ L'.assigned c := by
  cases hm
  case register fresh free => have := hw.fresh _ fresh; grind
  case assign => grind
  all_goals exact hj

theorem Placed.mem_assigned (h : Placed L role place) :
    j ∈ L.assigned c ↔ place j = .assigned c := by
  rw [← List.count_pos_iff, h.assigned c j]
  split <;> simp [*]

theorem Placed.notMem_queue (h : Placed L role place) (hj : j ∈ L.assigned c) : j ∉ L.queue := by
  have hplace := h.mem_assigned.mp hj
  exact List.count_eq_zero.mp ((h.queued j).trans (if_neg (by simp [hplace])))

/-! ### The step model -/

def Pc.popped : Pc → Option Uuid
  | .dispatchSession j | .dispatchInner j | .dispatchWorkers j | .dispatchPushFront j _ => some j
  | _ => none

/-- The job that an `activate_session` has marked as connected but not yet pushed. -/
def Pc.activating : Pc → Option Uuid
  | .activateSessionQueue j | .activateSessionLimits j => some j
  | _ => none

def Pc.aboutToComplete : Pc → Option Uuid
  | .stopQueue _ j | .completeSession j _ .finish | .unregisterWorkerCount (some j) _
  | .unregisterWorkerSession j _ | .unregisterWorkerSend j _ => some j
  | _ => none

theorem Pc.holds_cases {pc : Pc} (h : (pc.role cause).holds = some j) :
    pc.activating = some j ∨ pc.popped = some j ∧ (pc.role cause).dispatches = true := by
  cases pc
  case completeSession j' e stage => cases stage <;> simp [Pc.role, Role.holds] at h
  case done => cases cause <;> simp [Pc.role, Cause.after, Role.holds] at h
  case unregisterWorkerCount job _ => cases job <;> simp [Pc.role, Role.holds] at h
  case handleWorkerEventSession j' payload =>
    rcases payload with _ | _ | _ | _ | _ | _ <;> simp [Pc.role, Role.holds] at h
  all_goals first | exact .inl h | exact .inr ⟨h, rfl⟩

theorem Pc.aboutToComplete_of_ends {pc : Pc} (h : (pc.role cause).ends = some j) :
    pc.aboutToComplete = some j := by
  cases pc
  case completeSession j' e stage => cases stage <;> exact h
  case done => cases cause <;> exact h
  case unregisterWorkerCount job _ => cases job <;> exact h
  case handleWorkerEventSession j' payload =>
    rcases payload with _ | _ | _ | _ | _ | _ <;> exact h
  all_goals exact h

theorem assignedJobs_step (hr : Reachable env s) (hj : j ∈ (s.shared.channel c).assignedJobs)
    (hs : s.step env a = some s') : j ∈ (s'.shared.channel c).assignedJobs := by
  rcases State.step_overview (Reachable.orderly hr) hs with heq | ⟨t, _, _, r', hm, _⟩
  · exact (congrArg (fun o => j ∈ o.ledger.assigned c) heq).mpr hj
  · exact hm.assigned_mono (wired (Reachable.overview hr)) hj

theorem assignedJobs_mono (h : Reachable env s) (hj : j ∈ (s.shared.channel c).assignedJobs)
    (he : execute (State.step env) s as = some s') :
    Reachable env s' ∧ j ∈ (s'.shared.channel c).assignedJobs := by
  refine execute_induction
    (I := fun s => Reachable env s ∧ j ∈ (s.shared.channel c).assignedJobs) ?_ ⟨h, hj⟩ he
  rintro s s' a ⟨hr, hj⟩ hs
  exact ⟨hr.next hs, assignedJobs_step hr hj hs⟩

theorem no_job_lost_or_duplicated (h : Reachable env s) :
    (∀ j, (s.shared.inner j).socketConnected = true → (s.shared.inner j).finished = false →
      j ∈ s.shared.queue ∨ (s.task .dispatcher).pc.popped = some j ∨
      (∃ t, (s.task t).pc.activating = some j) ∨
      (∃ w h, s.shared.workers.lookup w = some h ∧ h.currentJob = some j) ∨
      ∃ t, (s.task t).pc.aboutToComplete = some j) ∧
    s.shared.queue.Nodup ∧
    (∀ w w' h h' j, s.shared.workers.lookup w = some h → s.shared.workers.lookup w' = some h' →
      h.currentJob = some j → h'.currentJob = some j → w = w') ∧
    ∀ c j as s', j ∈ (s.shared.channel c).assignedJobs →
      execute (State.step env) s as = some s' → j ∉ s'.shared.queue := by
  have ho := Reachable.overview h
  obtain ⟨place, hp⟩ := placed ho
  refine ⟨fun j hconnected hlive => ?_, ?_, ?_, ?_⟩
  · rcases attended ho j hconnected hlive with hq | ⟨w, hd, hw, hj⟩ | ⟨t, hholds | hends⟩
    · exact .inl hq
    · obtain ⟨hd, hlookup, rfl⟩ := Option.map_eq_some_iff.mp hw
      exact .inr (.inr (.inr (.inl ⟨w, hd, hlookup, hj⟩)))
    · rcases Pc.holds_cases hholds with hact | ⟨hpop, hdisp⟩
      · exact .inr (.inr (.inl ⟨t, hact⟩))
      · obtain rfl := dispatches_dispatcher ho t hdisp
        exact .inr (.inl hpop)
    · exact .inr (.inr (.inr (.inr ⟨t, Pc.aboutToComplete_of_ends hends⟩)))
  · refine List.nodup_iff_count_le_one.mpr fun j => ?_
    have := hp.queued j
    simp only [State.overview, Shared.ledger] at this
    grind
  · intro w w' h h' j hw hw' hj hj'
    have hlookup : ∀ w h, s.shared.workers.lookup w = some h →
        s.overview.ledger.workers w = some h.handle := fun w h hw => by
      simp [State.overview, Shared.ledger, hw]
    have hc := hp.current w h.handle j (hlookup w h hw) hj
    have hc' := hp.current w' h'.handle j (hlookup w' h' hw') hj'
    exact (wired ho).distinct w w' _ _ (hlookup w h hw) (hlookup w' h' hw')
      (Place.assigned.inj (hc.symm.trans hc'))
  · intro c j as s' hj he
    obtain ⟨hr', hj'⟩ := assignedJobs_mono h hj he
    obtain ⟨place', hp'⟩ := placed (Reachable.overview hr')
    exact hp'.notMem_queue hj'

theorem activated_job_is_queued :
    ∃ s, Reachable .forTest s ∧ (s.shared.inner 7).socketConnected = true ∧
      (7 ∈ s.shared.queue ∨ (s.task .dispatcher).pc.popped = some 7 ∨
        (∃ t, (s.task t).pc.activating = some 7) ∨
        (∃ w h, s.shared.workers.lookup w = some h ∧ h.currentJob = some 7) ∨
        ∃ t, (s.task t).pc.aboutToComplete = some 7) := by
  obtain ⟨s, hs, hp⟩ := Transition.reachable_of_execute (f := State.step .forTest) (i := .new)
    (Schedule.submit 0 [7])
    (p := fun s => (s.shared.inner 7).socketConnected && !(s.shared.inner 7).finished) (by decide)
  simp only [Bool.and_eq_true, Bool.not_eq_true'] at hp
  exact ⟨s, hs, hp.1, (no_job_lost_or_duplicated hs).1 7 hp.1 hp.2⟩

end SmartC.Executor
