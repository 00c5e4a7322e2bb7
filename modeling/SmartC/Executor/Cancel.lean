import SmartC.Executor.Completion

/-!
# Cancelling

A worker may be freed once its exit event was accepted. `Closed` says that a
worker without a job has closed every assignment sent on its connection,
provided that a cancellation which found its session unassigned finishes it
unassigned: `cancel_execution` acts on an answer it read under a lock that it
has released, and `complete_session` frees whatever worker it finds.
-/

namespace SmartC.Executor

open Function (update)
open Transition (ReachableWhen)

/-! ### Exit events -/

def Exited (accepted : Uuid → List JobEvent) (c j : Uuid) : Prop :=
  ∃ e ∈ accepted c, e.exited = some j

theorem Exited.append (h : Exited accepted c j) (c' : Uuid) (e : JobEvent) :
    Exited (update accepted c' (accepted c' ++ [e])) c j := by
  obtain ⟨x, hx, hj⟩ := h
  refine ⟨x, ?_, hj⟩
  by_cases hc : c = c'
  · subst hc; simp [hx]
  · simpa [hc] using hx

theorem exited_append {e : JobEvent} (accepted : Uuid → List JobEvent) (c : Uuid)
    (he : e.exited = some j) : Exited (update accepted c (accepted c ++ [e])) c j :=
  ⟨e, by simp, he⟩

/-! ### Closed assignments -/

@[grind]
def Role.reports : Role → Option Uuid
  | .reporting j => some j
  | .ending cause j => match cause with
    | .exited => some j
    | .stopped | .lost => none
  | .idle | .counting _ | .checking _ | .admitting _ | .enqueueing _ | .notifying | .popped _
  | .assigning _ | .returning .. | .awaiting | .parked | .stopping _ | .completing .. => none

/-- The job that a task completes because its worker is gone. -/
@[grind]
def Role.loses : Role → Option Uuid
  | .ending cause j => match cause with
    | .lost => some j
    | .stopped | .exited => none
  | .idle | .counting _ | .checking _ | .admitting _ | .enqueueing _ | .notifying | .popped _
  | .assigning _ | .returning .. | .awaiting | .parked | .reporting _ | .stopping _
  | .completing .. => none

structure Closed (L : Ledger) (role : Tid → Role) : Prop where
  reported : ∀ t j, (role t).reports = some j → ∃ c, j ∈ L.assigned c ∧ Exited L.accepted c j
  lost : ∀ t j, (role t).loses = some j → (∃ c, j ∈ L.assigned c) ∧ ¬ Employed L.workers j
  freed : ∀ t p, (role t).frees = some p → ∀ h, L.workers p.2 = some h →
    h.currentJob = some p.1 → Exited L.accepted h.connectionId p.1
  assigned : ∀ w h j, L.workers w = some h → j ∈ L.assigned h.connectionId →
    h.currentJob = some j ∨ Exited L.accepted h.connectionId j

def CancelsUnassigned (o : Overview) (t : Tid) : Prop :=
  ∀ j, o.role t = .ending .stopped j → (o.ledger.flags j).finished = false →
    (o.ledger.flags j).assignedWorker = none

section

variable {config : AppConfig} {L L' : Ledger} {role : Tid → Role} {place : Uuid → Place} {t : Tid}
  {r r' : Role}

theorem Closed.move_reported (h : Closed L role) (hp : Placed L role place) (hw : Wired L)
    (hr : role t = r) (hm : Move config t L r L' r') :
    ∀ u j, (update role t r' u).reports = some j →
      ∃ c, j ∈ L'.assigned c ∧ Exited L'.accepted c j := by
  have hreported := h.reported
  have hmono : ∀ u j, (role u).reports = some j → ∃ c, j ∈ L'.assigned c ∧ Exited L.accepted c j :=
    fun u j hu => by
      obtain ⟨c, hc, he⟩ := hreported u j hu
      exact ⟨c, hm.assigned_mono hw hc, he⟩
  have ht : ∀ j, r.reports = some j → ∃ c, j ∈ L'.assigned c ∧ Exited L.accepted c j :=
    hr ▸ hmono t
  cases hm
  case report w hd e worker goesOn =>
    refine forall_role_update (fun u j hu => ?_) nofun
    obtain ⟨c, hc, he⟩ := hreported u j hu
    exact ⟨c, hc, he.append ..⟩
  case reportExit w hd e k worker current exited =>
    refine forall_role_update (fun u j hu => ?_) fun j hj => ?_
    · obtain ⟨c, hc, he⟩ := hreported u j hu
      exact ⟨c, hc, he.append ..⟩
    · obtain rfl := Option.some.inj hj
      exact ⟨_, hp.mem_assigned.mpr (hp.current w hd k worker current), exited_append _ _ exited⟩
  case exit => exact forall_role_update hreported ht
  all_goals exact forall_role_update hmono nofun

theorem Closed.move_lost (h : Closed L role) (hp : Placed L role place) (hw : Wired L)
    (hr : role t = r) (hm : Move config t L r L' r') :
    ∀ u j, (update role t r' u).loses = some j →
      (∃ c, j ∈ L'.assigned c) ∧ ¬ Employed L'.workers j := by
  have hlost := h.lost
  have hmono : ∀ u j, (role u).loses = some j → ∃ c, j ∈ L'.assigned c := fun u j hu => by
    obtain ⟨⟨c, hc⟩, -⟩ := hlost u j hu
    exact ⟨c, hm.assigned_mono hw hc⟩
  -- A worker that is replaced gets no job that was lost.
  have hworkers : ∀ w (x : Option Handle), (∀ hd, x = some hd → ∀ j, hd.currentJob = some j →
      ∀ c, place j ≠ .assigned c) → ∀ u j, (role u).loses = some j →
        ¬ Employed (update L.workers w x) j := by
    rintro w x hx u j hu ⟨w', hd, hw', hj⟩
    obtain ⟨⟨c, hc⟩, hnone⟩ := hlost u j hu
    by_cases hww : w' = w
    · subst hww
      exact hx hd (by simpa using hw') j hj c (hp.mem_assigned.mp hc)
    · exact hnone ⟨w', hd, by simpa [hww] using hw', hj⟩
  cases hm
  case loseBusy w hd k worker current =>
    refine forall_role_update (fun u j hu => ⟨hmono u j hu, hworkers w none nofun u j hu⟩) ?_
    intro j hj
    obtain rfl := Option.some.inj hj
    have hplace := hp.current w hd k worker current
    refine ⟨⟨_, hp.mem_assigned.mpr hplace⟩, ?_⟩
    rintro ⟨w', hd', hw', hj'⟩
    by_cases hww : w' = w
    · simp [hww] at hw'
    · have hw' : L.workers w' = some hd' := by simpa [hww] using hw'
      have hplace' := hp.current w' hd' k hw' hj'
      exact hww (hw.distinct w' w hd' hd hw' worker (Place.assigned.inj (hplace'.symm.trans hplace)))
  case lose w hd worker idle =>
    exact forall_role_update (fun u j hu => ⟨hmono u j hu, hworkers w none nofun u j hu⟩) nofun
  case free k w hd worker current =>
    refine forall_role_update (fun u j hu => ⟨hmono u j hu, hworkers w _ ?_ u j hu⟩) nofun
    rintro _ ⟨⟩ j ⟨⟩
  case register w c fresh free =>
    refine forall_role_update (fun u j hu => ⟨hmono u j hu, hworkers w _ ?_ u j hu⟩) nofun
    rintro _ ⟨⟩ j ⟨⟩
  case assign k w hd room worker idle =>
    have hheld := (hp.held t k).mp (by simp [hr, Role.holds])
    refine forall_role_update (fun u j hu => ⟨hmono u j hu, hworkers w _ ?_ u j hu⟩) nofun
    rintro _ ⟨⟩ j ⟨⟩ c
    simp [hheld]
  all_goals exact forall_role_update hlost nofun

theorem Closed.move_freed (h : Closed L role) (hD : CancelsUnassigned ⟨L, role⟩ t)
    (hp : Placed L role place) (hl : Locked L role)
    (hc : ∀ t j stage, role t = .completing j stage → (L.flags j).finished = true)
    (hr : role t = r) (hm : Move config t L r L' r') :
    ∀ u p, (update role t r' u).frees = some p → ∀ hd, L'.workers p.2 = some hd →
      hd.currentJob = some p.1 → Exited L'.accepted hd.connectionId p.1 := by
  have hfreed := h.freed
  have ht : ∀ p, r.frees = some p → ∀ hd, L.workers p.2 = some hd → hd.currentJob = some p.1 →
      Exited L.accepted hd.connectionId p.1 := hr ▸ h.freed t
  cases hm
  case finish cause k free live =>
    refine forall_role_update hfreed fun p hf hd hw hj => ?_
    obtain ⟨w, hworker, rfl⟩ := Option.map_eq_some_iff.mp hf
    have hplace := hp.current w hd k hw hj
    cases cause with
    | stopped => exact absurd ((hD k hr live).symm.trans hworker) (by simp)
    | exited =>
      obtain ⟨c, hmem, he⟩ := h.reported t k (by rw [hr]; rfl)
      exact Place.assigned.inj ((hp.mem_assigned.mp hmem).symm.trans hplace) ▸ he
    | lost => exact absurd ⟨w, hd, hw, hj⟩ (h.lost t k (by rw [hr]; rfl)).2
  case report w hd e worker goesOn =>
    exact forall_role_update (fun u p hu hd hw hj => (hfreed u p hu hd hw hj).append ..) nofun
  case reportExit w hd e k worker current exited =>
    exact forall_role_update (fun u p hu hd hw hj => (hfreed u p hu hd hw hj).append ..) nofun
  case sendPhase | sendExit | keepLimits | release | settle =>
    exact forall_role_update hfreed ht
  case assign k w hd room worker idle =>
    -- The job that is being assigned is live, so no task frees its worker.
    have hlive := hl.live t k (by simp [hr, Role.locks])
    refine forall_role_update (fun u p hu hd' hw hj => ?_) nofun
    obtain ⟨stage, hstage⟩ := Role.completing_of_frees (j := p.1) (w := p.2) hu
    have hfinished := hc u p.1 stage hstage
    have hold := hfreed u p hu hd'
    grind
  case lose | loseBusy | free | register =>
    refine forall_role_update (fun u p hu hd' hw hj => ?_) nofun
    have hold := hfreed u p hu hd'
    grind
  all_goals exact forall_role_update hfreed nofun

theorem Closed.move_assigned (h : Closed L role) (hw : Wired L) (hr : role t = r)
    (hm : Move config t L r L' r') (w : String) (hd : Handle) (j : Uuid)
    (hwd : L'.workers w = some hd) (hj : j ∈ L'.assigned hd.connectionId) :
    hd.currentJob = some j ∨ Exited L'.accepted hd.connectionId j := by
  have hold := fun hd => h.assigned w hd j
  cases hm
  case report => exact (hold hd hwd hj).imp_right fun he => he.append ..
  case reportExit => exact (hold hd hwd hj).imp_right fun he => he.append ..
  case lose | loseBusy => grind
  case register fresh free =>
    have hnone := hw.fresh _ fresh
    have hknown := hw.known w
    grind
  case assign =>
    have hdistinct := hw.distinct w
    grind
  case free k w' hd' worker current =>
    have hexited := h.freed t (k, w') (by rw [hr]; rfl) hd' worker current
    grind
  all_goals exact hold hd hwd hj

end

theorem closed (h : ReachableWhen (ledgerSystem config) CancelsUnassigned o) :
    Closed o.ledger o.role :=
  ledger_invariant h ⟨by simp [Role.reports], by simp [Role.loses], by simp [Role.frees],
    by simp [Ledger.new]⟩
    fun hr hD hi ht hm => by
      obtain ⟨place, hp⟩ := placed hr
      exact ⟨hi.move_reported hp (wired hr) ht hm, hi.move_lost hp (wired hr) ht hm,
        hi.move_freed hD hp (locked hr) (fun _ _ _ => completing_finished hr) ht hm,
        hi.move_assigned (wired hr) ht hm⟩

/-! ### Assignments in the step model -/

/-- Whenever a registered worker has no job, every assignment ever sent on its
connection was followed there by a cancellation of the job, or an exit event of
the job was received from the worker. -/
def State.AssignmentsClosed (s : State) : Prop :=
  ∀ w h, s.shared.workers.lookup w = some h → h.currentJob = none →
    ∀ (i : Nat) (j : Uuid), (s.shared.channel h.connectionId).sent[i]?.bind ApiMessage.assigned = some j →
      (∃ k : Nat, i < k ∧
        (s.shared.channel h.connectionId).sent[k]?.bind ApiMessage.cancels = some j) ∨
      ∃ e ∈ s.shared.accepted h.connectionId, e.exited = some j

/-- Whether `complete_session`, when it finishes a session in this step on behalf of
`cancel_execution` or `resource_limit_execution`, finds it as unassigned as they did. -/
def State.cancelsUnassigned (s : State) : Action → Bool
  | .run t _ =>
    match (s.task t).pc with
    | .completeSession j _ .finish =>
      Frame.cause (s.task t).frames.head? != .stopped || (s.shared.inner j).finished ||
        (s.shared.inner j).assignedWorker.isNone
    | _ => true
  | _ => true

theorem Pc.ending_stopped {pc : Pc} (h : pc.role cause = .ending .stopped j) :
    cause = .stopped ∧ ∃ e, pc = .completeSession j e .finish := by
  cases pc
  case completeSession k e stage =>
    cases stage <;> simp [Pc.role] at h
    exact ⟨h.1, e, by rw [h.2]⟩
  case done => cases cause <;> simp [Pc.role, Cause.after] at h
  case unregisterWorkerCount job _ => cases job <;> simp [Pc.role] at h
  case handleWorkerEventSession k payload =>
    rcases payload with _ | _ | _ | _ | _ | _ <;> simp [Pc.role] at h
  all_goals simp [Pc.role] at h

theorem State.cancelsUnassigned_overview {s : State}
    (h : s.cancelsUnassigned (.run t choice) = true) : CancelsUnassigned s.overview t := by
  intro j hj hlive
  obtain ⟨hcause, e, hpc⟩ := Pc.ending_stopped hj
  have hlive : (s.shared.inner j).finished = false := hlive
  have hnone : (s.shared.inner j).assignedWorker = none := by
    simpa [State.cancelsUnassigned, hpc, hcause, hlive] using h
  exact hnone

theorem cancelling_never_frees_busy_worker
    (h : ReachableWhen (system env) (fun s a => s.cancelsUnassigned a = true) s) :
    s.AssignmentsClosed := by
  intro w hd hw hidle i j hi
  have hclosed := closed (reachable_overview (fun _ _ _ => State.cancelsUnassigned_overview) h)
  have hj : j ∈ (s.shared.channel hd.connectionId).assignedJobs := by
    obtain ⟨m, hm, hj⟩ := Option.bind_eq_some_iff.mp hi
    exact List.mem_filterMap.mpr ⟨m, List.mem_of_getElem? hm, hj⟩
  have hworker : s.overview.ledger.workers w = some hd.handle := by
    simp [State.overview, Shared.ledger, hw]
  refine (hclosed.assigned w hd.handle j hworker hj).elim (fun hc => ?_) .inr
  exact absurd (hidle.symm.trans hc) (by simp)

/-- A worker that ran job 7 and reported its exit. -/
theorem exited_job_is_closed :
    ∃ s, ReachableWhen (system .forTest) (fun s a => s.cancelsUnassigned a = true) s ∧
      ((s.shared.workers.lookup "w").any fun h => h.currentJob = none) ∧
      (s.shared.channel 100).assignedJobs = [7] ∧ s.AssignmentsClosed := by
  obtain ⟨s, hs, hp⟩ := Transition.reachableWhen_of_execute (f := State.step .forTest) (i := .new)
    (c := State.cancelsUnassigned)
    (Schedule.register 0 "w" 100 ++ Schedule.submit 1 [7] ++ Schedule.assign "w" ++
      Schedule.exit 0 "w" 7)
    (p := fun s => ((s.shared.workers.lookup "w").any fun h => h.currentJob = none) &&
      (s.shared.channel 100).assignedJobs = [7]) (by decide)
  simp only [Bool.and_eq_true, decide_eq_true_eq] at hp
  exact ⟨s, hs, hp.1, hp.2, cancelling_never_frees_busy_worker hs⟩

/-- A cancellation reads that job 7 is unassigned, the dispatcher assigns it, and the
cancellation completes the session: the worker counts as free, was sent no
cancellation and has reported no exit. -/
theorem cancellation_frees_assigned_worker :
    ∃ s, Reachable .forTest s ∧ ¬ s.AssignmentsClosed := by
  obtain ⟨s, hs, hp⟩ := Transition.reachable_of_execute (f := State.step .forTest) (i := .new)
    (Schedule.register 0 "w" 100 ++ Schedule.submit 1 [7] ++
      .start 4 (.cancelExecution 7 "user_terminated") :: Schedule.go 4 1 ++ Schedule.assign "w" ++
      Schedule.go 4 11)
    (p := fun s => ((s.shared.workers.lookup "w").any fun h =>
        h.currentJob = none && h.connectionId = 100) &&
      (s.shared.channel 100).sent.map ApiMessage.assigned = [some 7] &&
      (s.shared.accepted 100).isEmpty) (by decide)
  simp only [Bool.and_eq_true, decide_eq_true_eq, Option.any_eq_true, List.isEmpty_iff] at hp
  obtain ⟨⟨⟨hd, hw, hidle, hc⟩, hsent⟩, hnone⟩ := hp
  refine ⟨s, hs, fun hclosed => ?_⟩
  obtain ⟨m, hm, hj⟩ := List.map_eq_singleton_iff.mp hsent
  rcases hclosed "w" hd hw hidle 0 7 (by simp [hc, hm, hj]) with ⟨k, hk, hcancel⟩ | ⟨e, he, -⟩
  · rw [hc, hm, List.getElem?_eq_none hk] at hcancel
    cases hcancel
  · simp [hc, hnone] at he

end SmartC.Executor
