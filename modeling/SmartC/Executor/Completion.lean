import SmartC.Executor.Custody

/-!
# Every session ends once and is accounted for

`Counted` matches `created_total` with the ids handed out, `Employed.owned`
ties a worker's job to the session that names the worker. Together with
`Progressed` they say what the sessions map, the totals and the workers hold
when no operation is in progress.
-/

namespace SmartC.Executor

open Function (update)
open Transition (ReachableWhen execute execute_induction)

/-! ### The size of the sessions map -/

theorem Move.sessions_card (hm : Move config t L r L' r')
    (h : L.sessions.card ≤ config.sessionCapacity) :
    L'.sessions.card ≤ config.sessionCapacity := by
  cases hm with
  | insert fresh room => exact le_trans (Finset.card_insert_le ..) room
  | remove => exact le_trans (Finset.card_erase_le ..) h
  | _ => exact h

theorem sessions_card (h : ReachableWhen (ledgerSystem config) D o) :
    o.ledger.sessions.card ≤ config.sessionCapacity :=
  ledger_invariant (I := fun L _ => L.sessions.card ≤ config.sessionCapacity) h (Nat.zero_le _)
    fun _ _ hi _ hm => hm.sessions_card hi

/-! ### The totals -/

/-- Every created session has been counted, or one `create_execution` is about
to count it. -/
structure Counted (L : Ledger) (role : Tid → Role) : Prop where
  unique : ∀ t u j, role t = .counting j → role u = .counting j → t = u
  total : L.createdTotal + L.created.countWhere (fun j => ∃ t, role t = .counting j) =
    L.created.card

section

variable {config : AppConfig} {L L' : Ledger} {role : Tid → Role} {place : Uuid → Place} {t : Tid}
  {r r' : Role}

theorem Counted.move_unique (h : Counted L role) (hk : Known L role) (hr : role t = r)
    (hm : Move config t L r L' r') (u v : Tid) (j : Uuid)
    (hu : update role t r' u = .counting j) (hv : update role t r' v = .counting j) : u = v := by
  have hback : (∀ k, r' ≠ .counting k) → ∀ u, update role t r' u = .counting j →
      role u = .counting j := fun hne u hu => by
    by_cases hut : u = t
    · subst hut; exact absurd (by simpa using hu) (hne j)
    · simpa [hut] using hu
  cases hm
  case insert fresh room =>
    have hknown : ∀ t, role t = .counting j → j ∈ L.created := fun t ht =>
      hk.roles t j (by simp [ht, Role.job])
    have hunique := h.unique u v j
    grind
  all_goals exact h.unique u v j (hback (by simp) u hu) (hback (by simp) v hv)

theorem Counted.move_total (h : Counted L role) (hk : Known L role) (hr : role t = r)
    (hm : Move config t L r L' r') :
    L'.createdTotal + L'.created.countWhere (fun j => ∃ u, update role t r' u = .counting j) =
      L'.created.card := by
  have hknown : ∀ t j, role t = .counting j → j ∈ L.created := fun t j ht =>
    hk.roles t j (by simp [ht, Role.job])
  have hiff := fun k => exists_role_update role t r'
    (P := fun r => r = .counting k)
  obtain ⟨unique, total⟩ := h
  cases hm with
  | insert fresh room =>
    rename_i n v i
    have hunknown : ¬ ∃ u, role u = .counting n := fun ⟨u, hu⟩ => fresh (hknown u n hu)
    have hgain := Finset.countWhere_gain (s := insert n L.created) (a := n)
      (p := fun k => ∃ u, role u = .counting k)
      (q := fun k => ∃ u, update role t (.counting n) u = .counting k)
      (Finset.mem_insert_self ..) hunknown ⟨t, Function.update_self ..⟩
      fun k _ hk => by rw [hiff k]; grind
    have hsame := Finset.countWhere_insert (s := L.created)
      (p := fun k => ∃ u, role u = .counting k) hunknown
    rw [hgain, hsame, Finset.card_insert_of_notMem fresh, ← Nat.add_assoc]
    exact congrArg (· + 1) total
  | count =>
    rename_i n
    have hlose := Finset.countWhere_gain (s := L.created) (a := n)
      (p := fun k => ∃ u, update role t .idle u = .counting k)
      (q := fun k => ∃ u, role u = .counting k) (hknown t n hr) (by rw [hiff n]; grind) ⟨t, hr⟩
      fun k _ hk => by rw [hiff k]; grind
    rw [hlose] at total
    exact (Nat.succ_add_eq_add_succ ..).trans total
  | _ =>
    refine Eq.trans (congrArg _ (Finset.countWhere_congr fun k _ => ?_)) total
    exact exists_role_update_of_not _ (P := fun r => r = .counting k) hr nofun nofun

theorem Counted.move (h : Counted L role) (hk : Known L role) (hr : role t = r)
    (hm : Move config t L r L' r') : Counted L' (update role t r') :=
  ⟨h.move_unique hk hr hm, h.move_total hk hr hm⟩

end

theorem counted (h : ReachableWhen (ledgerSystem config) D o) : Counted o.ledger o.role :=
  ledger_invariant h ⟨by simp, by simp [Ledger.new, Finset.countWhere_empty]⟩
    fun hr _ hi ht hm => hi.move (known hr) ht hm

/-! ### Workers and the sessions that name them -/

@[grind]
def Role.frees : Role → Option (Uuid × String)
  | .completing j stage =>
    match stage with
    | .sendPhase w | .sendExit w | .releaseInner w | .releaseLimits w _ | .freeWorker w =>
      w.map (j, ·)
    | .finish | .count | .remove | .notify => none
  | .idle | .counting _ | .checking _ | .admitting _ | .enqueueing _ | .notifying | .popped _
  | .assigning _ | .returning .. | .awaiting | .parked | .reporting _ | .stopping _
  | .ending .. => none

theorem Role.completing_of_frees {r : Role} (h : r.frees = some (j, w)) :
    ∃ stage, r = .completing j stage := by
  cases r
  case completing k stage => cases stage <;> simp [Role.frees] at h <;> simp [h]
  all_goals simp [Role.frees] at h

/-- A worker's job is a live session that names the worker, or a task that
completes the session is about to free the worker. -/
def Owned (L : Ledger) (role : Tid → Role) : Prop :=
  ∀ w h j, L.workers w = some h → h.currentJob = some j →
    (L.flags j).assignedWorker = some w ∧ (L.flags j).finished = false ∨
      ∃ t, (role t).frees = some (j, w)

theorem Owned.move {L L' : Ledger} (h : Owned L role) (hk : Known L role) (hl : Locked L role)
    (hp : Placed L role place) (hr : role t = r) (hm : Move config t L r L' r') :
    Owned L' (update role t r') := by
  intro w h' j hw hj
  have hold := fun h' => h w h' j
  have hframe := exists_role_update_of_not r' (P := fun r => r.frees = some (j, w)) hr
  have hiff := exists_role_update role t r'
    (P := fun r => r.frees = some (j, w))
  cases hm
  case freeNothing worker other => cases worker <;> rw [hiff] <;> grind
  case assign k w' hd room worker idle =>
    -- No worker can have had the job that the dispatcher holds.
    have hlive := hl.live t k (by simp [hr, Role.locks])
    have hheld := (hp.held t k).mp (by simp [hr, Role.holds])
    have hcurrent := hp.current w h' k
    rw [hframe nofun nofun]
    grind
  case insert fresh room =>
    have hknown := hk.current w h' j hw hj
    rw [hframe nofun nofun]
    grind
  case lose | loseBusy | register | consume | activate => rw [hframe nofun nofun]; grind
  case finish | sendPhase | sendExit | keepLimits | release | settle | free => rw [hiff]; grind
  all_goals rw [hframe nofun nofun]; exact hold h' hw hj

theorem owned (h : ReachableWhen (ledgerSystem config) D o) : Owned o.ledger o.role :=
  ledger_invariant h (by simp [Owned, Ledger.new]) fun hr _ hi ht hm => by
    obtain ⟨place, hp⟩ := placed hr
    exact hi.move (known hr) (locked hr) hp ht hm

/-! ### Finished sessions stay finished -/

theorem Move.finished_mono (hm : Move config t L r L' r') (hk : Known L role)
    (hj : (L.flags j).finished = true) : (L'.flags j).finished = true := by
  have hnew := hk.flags j
  cases hm <;> first | exact hj | grind

theorem finished_step (hr : Reachable env s) (hj : (s.shared.inner j).finished = true)
    (hs : s.step env a = some s') : (s'.shared.inner j).finished = true := by
  rcases State.step_overview (Reachable.orderly hr) hs with heq | ⟨t, _, _, r', hm, _⟩
  · exact (congrArg (fun o => (o.ledger.flags j).finished = true) heq).mpr hj
  · exact hm.finished_mono (known (Reachable.overview hr)) hj

theorem finished_mono (h : Reachable env s) (hj : (s.shared.inner j).finished = true)
    (he : execute (State.step env) s as = some s') : (s'.shared.inner j).finished = true := by
  refine (execute_induction (I := fun s => Reachable env s ∧ (s.shared.inner j).finished = true)
    ?_ ⟨h, hj⟩ he).2
  rintro s s' a ⟨hr, hj⟩ hs
  exact ⟨hr.next hs, finished_step hr hj hs⟩

/-! ### The step model -/

def State.exits (s : State) (j : Uuid) : Nat := (s.shared.events j).countP BrowserEvent.closesSocket

theorem State.Quiet.opened_or_closed {s : State} (h : s.Quiet)
    (hp : Progressed s.overview.ledger s.overview.role progress) (j : Uuid) :
    progress j = .opened ∨ progress j = .closed := by
  cases hj : progress j with
  | opened => exact .inl rfl
  | closed => exact .inr rfl
  | completing t stage =>
    have ht := (hp.completing t j stage).mpr hj
    rcases h.role t with hr | hr | hr <;> simp [hr] at ht

theorem State.Quiet.finished_iff {s : State} (h : s.Quiet)
    (hp : Progressed s.overview.ledger s.overview.role progress) (j : Uuid) :
    (s.shared.inner j).finished = true ↔ progress j = .closed := by
  have hf : (s.shared.inner j).finished = false ↔ progress j = .opened := hp.finished j
  rcases h.opened_or_closed hp j with hj | hj
  · simp [hf.mpr hj, hj]
  · simpa [hj] using hf

theorem State.exits_of_finished {s : State}
    (hp : Progressed s.overview.ledger s.overview.role progress) (j : Uuid)
    (hf : (s.shared.inner j).finished = true) :
    s.exits j = 1 ∨ s.exits j = 0 ∧ ∃ t e w, (s.task t).pc = .completeSession j e (.sendPhase w) ∨
      (s.task t).pc = .completeSession j e (.sendExit w) := by
  have hexits : s.exits j = if (progress j).rank ≤ 2 then 0 else 1 := hp.exits j
  have hopened : progress j ≠ .opened := fun ho => by
    have hlive : (s.shared.inner j).finished = false := (hp.finished j).mpr ho
    exact Bool.false_ne_true (hlive.symm.trans hf)
  split at hexits
  · rename_i hrank
    refine .inr ⟨hexits, ?_⟩
    cases hj : progress j with
    | opened => exact absurd hj hopened
    | closed => simp [hj, Progress.rank] at hrank
    | completing t stage =>
      obtain ⟨hfinish, e, he⟩ := Pc.completing_iff.mp ((hp.completing t j stage).mpr hj)
      rw [hj] at hrank
      refine ⟨t, e, ?_⟩
      cases stage <;> simp [Progress.rank, CompleteAt.rank] at hrank hfinish
      · exact ⟨_, .inl he⟩
      · exact ⟨_, .inr he⟩
  · exact .inl hexits

section

variable {s : State} {progress : Uuid → Progress}

theorem State.Quiet.exits (hq : s.Quiet)
    (hp : Progressed s.overview.ledger s.overview.role progress) (j : Uuid)
    (hf : (s.shared.inner j).finished = true) : s.exits j = 1 := by
  have hexits : s.exits j = if (progress j).rank ≤ 2 then 0 else 1 := hp.exits j
  simpa [(hq.finished_iff hp j).mp hf, Progress.rank] using hexits

theorem State.Quiet.mem_sessions (hq : s.Quiet)
    (hp : Progressed s.overview.ledger s.overview.role progress) (j : Uuid) :
    j ∈ s.shared.sessions ↔ j ∈ s.shared.created ∧ (s.shared.inner j).finished = false := by
  have hfinished : (s.shared.inner j).finished = false ↔ progress j = .opened := hp.finished j
  refine (hp.sessions j).trans (and_congr_right fun _ => ?_)
  rw [hfinished]
  rcases hq.opened_or_closed hp j with hj | hj <;> simp [hj, Progress.rank]

theorem State.Quiet.totals (hq : s.Quiet) (h : Reachable env s)
    (hp : Progressed s.overview.ledger s.overview.role progress) :
    s.shared.metrics.createdTotal =
      s.shared.metrics.completedTotal + s.shared.sessions.card := by
  have hnone : s.shared.created.countWhere
      (fun j => ∃ t, s.overview.role t = .counting j) = 0 :=
    Finset.countWhere_eq_zero fun j _ ⟨t, ht⟩ => by
      rcases hq.role t with hr | hr | hr <;> simp [hr] at ht
  have hcreated : s.shared.metrics.createdTotal = s.shared.created.card :=
    (congrArg (s.shared.metrics.createdTotal + ·) hnone).symm.trans
      (counted (Reachable.overview h)).total
  have hcompleted : s.shared.metrics.completedTotal =
      s.shared.created.countWhere fun j => ¬ (s.shared.inner j).finished = false :=
    hp.completed.trans (Finset.countWhere_congr fun j _ => by
      rw [Bool.not_eq_false, hq.finished_iff hp j]
      rcases hq.opened_or_closed hp j with hj | hj <;> simp [hj, Progress.rank])
  rw [hcreated, hcompleted, Finset.card_eq_countWhere (hq.mem_sessions hp), Nat.add_comm]
  exact (Finset.countWhere_add_not ..).symm

theorem State.Quiet.employed (hq : s.Quiet) (h : Reachable env s)
    (hw : s.shared.workers.lookup w = some hd) (hj : hd.currentJob = some j) :
    (s.shared.inner j).finished = false := by
  have hhandle : s.overview.ledger.workers w = some hd.handle := by
    simp [State.overview, Shared.ledger, hw]
  rcases owned (Reachable.overview h) w hd.handle j hhandle hj with ⟨-, hlive⟩ | ⟨t, ht⟩
  · exact hlive
  · rcases hq.role t with hr | hr | hr <;> simp [hr, Role.frees] at ht

end

theorem sessions_end_exactly_once (h : Reachable env s) :
    s.shared.sessions.card ≤ env.config.sessionCapacity ∧
    (∀ j, (s.shared.inner j).finished = true → ∀ as s', execute (State.step env) s as = some s' →
      (s'.shared.inner j).finished = true) ∧
    (∀ j, (s.shared.inner j).finished = false → s.exits j = 0) ∧
    (∀ j, (s.shared.inner j).finished = true → s.exits j = 1 ∨ s.exits j = 0 ∧ ∃ t e w,
      (s.task t).pc = .completeSession j e (.sendPhase w) ∨
      (s.task t).pc = .completeSession j e (.sendExit w)) ∧
    (s.Quiet →
      (∀ j, (s.shared.inner j).finished = true → s.exits j = 1) ∧
      (∀ j, j ∈ s.shared.sessions ↔
        j ∈ s.shared.created ∧ (s.shared.inner j).finished = false) ∧
      s.shared.metrics.createdTotal =
        s.shared.metrics.completedTotal + s.shared.sessions.card ∧
      ∀ w h j, s.shared.workers.lookup w = some h → h.currentJob = some j →
        j ∈ s.shared.sessions ∧ (s.shared.inner j).finished = false) := by
  have ho := Reachable.overview h
  obtain ⟨progress, hp⟩ := progressed ho
  refine ⟨sessions_card ho, fun j hj as s' he => finished_mono h hj he, fun j hj => ?_,
    State.exits_of_finished hp, fun hq => ?_⟩
  · have hexits : s.exits j = if (progress j).rank ≤ 2 then 0 else 1 := hp.exits j
    simpa [(hp.finished j).mp hj, Progress.rank] using hexits
  · refine ⟨hq.exits hp, hq.mem_sessions hp, hq.totals h hp, fun w hd j hw hj => ?_⟩
    have hlive := hq.employed h hw hj
    have hcreated : j ∈ s.shared.created :=
      (known ho).current w hd.handle j (by simp [State.overview, Shared.ledger, hw]) hj
    exact ⟨(hq.mem_sessions hp j).mpr ⟨hcreated, hlive⟩, hlive⟩

/-- A session cancelled before it was assigned: one exit message, and the map is empty again. -/
theorem cancelled_session_ends_once :
    ∃ s, Reachable .forTest s ∧ (s.shared.inner 7).finished = true ∧ s.exits 7 = 1 ∧
      s.shared.metrics.createdTotal =
        s.shared.metrics.completedTotal + s.shared.sessions.card := by
  obtain ⟨s, hs, hfinished, hquiet⟩ : ∃ s,
      execute (State.step .forTest) .new (Schedule.submit 0 [7] ++
        .start 3 (.cancelExecution 7 "user_terminated") :: Schedule.go 3 12 ++
        Schedule.dispatch 1) = some s ∧
      (s.shared.inner 7).finished = true ∧ s.Quiet := by
    refine ⟨_, rfl, by decide, ?_⟩
    rintro (_ | _ | _ | _ | _ | n) <;> rfl
  have hr := Transition.Reachable.execute .init hs
  obtain ⟨-, -, -, -, hq⟩ := sessions_end_exactly_once hr
  exact ⟨s, hr, hfinished, (hq hquiet).1 7 hfinished, (hq hquiet).2.2.1⟩

end SmartC.Executor
