import SmartC.Cluster.Streams
import SmartC.Executor.Cancel

/-!
# An assignment meets an idle worker

The API calls a worker free when it has handled the exit event of its job; the
worker calls itself free when its loop has taken the completion of the job's
task. `Single` says that at most one assignment is open on a connection, the
active job included. It holds as long as the dispatcher does not use the time
between the two.
-/

namespace SmartC.Cluster

open Executor (Tid Sends Exited)
open Transition (ReachableWhen)
open Worker (Client ClientAction ClientError WorkerConfig)

/-- The worker that is given a job in this step has ended its loop, or has no job active whose
exit event was already accepted on its connection; and a cancellation finds its session as
unassigned as it was. -/
def assignsToIdle (env : Executor.Env) (s : Cluster) : Action → Bool
  | .api a => s.api.cancelsUnassigned a &&
    match a with
    | .run t (.candidate w) =>
      match (s.api.task t).pc, s.api.shared.workers.lookup w with
      | .dispatchWorkers _, some h =>
        !s.api.shared.gives env.config h || (s.client h.connectionId).ended ||
          (s.client h.connectionId).active.all fun j =>
            !(s.api.shared.accepted h.connectionId).any fun e => e.exited = some j
      | _, _ => true
    | _ => true
  | _ => true

def Single (s : Cluster) : Prop :=
  ∀ c, (s.client c).ended = false →
    (s.pendingJobs c).length + (s.client c).active.toList.length ≤ 1

section

variable {env : Executor.Env} {config : WorkerConfig} {C : Cluster → Action → Prop}
  {s s' : Cluster} {a : Action} {c j : Uuid}

/-! ### Exits -/

theorem received_of_exited (h : ReachableWhen (clusterSystem env config) C s)
    (hj : Exited s.api.shared.accepted c j) : j ∈ (s.client c).assignedJobs := by
  obtain ⟨e, he, hexited⟩ := hj
  obtain ⟨-, i, payload, hid, hpayload, hmem⟩ := (honest h c).event e ((heard h).accepted c e he)
  obtain rfl : i = j := by
    simp only [JobEvent.exited, hid, JobIdText.parse] at hexited
    split at hexited
    · exact Option.some.inj hexited
    · cases hexited
  by_contra habsent
  rw [(sound h c).absent i habsent] at hmem
  cases hmem

theorem notMem_pendingJobs (h : ReachableWhen (clusterSystem env config) C s)
    (hj : j ∈ (s.client c).assignedJobs) : j ∉ s.pendingJobs c := by
  have hnodup := (assigned_once h c).1
  rw [← (piped h).stream c, List.filterMap_append] at hnodup
  exact fun hmem => (List.nodup_append.1 hnodup).2.2 j hj j hmem rfl

/-! ### The dispatcher -/

theorem reachable_cancelsUnassigned
    (h : ReachableWhen (clusterSystem env config) (fun s a => s.assignsToIdle env a = true) s) :
    ReachableWhen (Executor.system env) (fun s a => s.cancelsUnassigned a = true) s.api :=
  reachableWhen_api (fun _ _ => rfl) (fun _ _ hc => (Bool.and_eq_true_iff.1 hc).1) h

/-- A connection whose worker has no job for the API has none that is open. -/
theorem exited_of_idle {w : String} {hd : Executor.WorkerHandle}
    (h : ReachableWhen (clusterSystem env config) (fun s a => s.assignsToIdle env a = true) s)
    (hw : s.api.shared.workers.lookup w = some hd) (hidle : hd.currentJob = none)
    (hj : j ∈ (s.api.shared.channel hd.connectionId).assignedJobs) :
    Exited s.api.shared.accepted hd.connectionId j := by
  have hclosed := Executor.closed (Executor.reachable_overview
    (fun _ _ _ => Executor.State.cancelsUnassigned_overview) (reachable_cancelsUnassigned h))
  have hworker : s.api.overview.ledger.workers w = some hd.handle := by
    simp [Executor.State.overview, Executor.Shared.ledger, hw]
  refine (hclosed.assigned w hd.handle j hworker hj).resolve_left fun hcurrent => ?_
  cases hidle.symm.trans hcurrent

theorem idle_of_assigns {t : Tid} {choice : Executor.Choice} {m : JobAssignment}
    (h : ReachableWhen (clusterSystem env config) (fun s a => s.assignsToIdle env a = true) s)
    (hc : s.assignsToIdle env (.api (.run t choice)) = true)
    (hs : Sends env s.api t choice c (.assignment m)) (hended : (s.client c).ended = false) :
    s.pendingJobs c = [] ∧ (s.client c).active = none := by
  cases hs with
  | @assignment i w hd at_ chosen worker connection idle gives =>
    subst connection chosen
    have hexited : ∀ j, j ∈ (s.api.shared.channel hd.connectionId).assignedJobs →
        Exited s.api.shared.accepted hd.connectionId j := fun j => exited_of_idle h worker idle
    constructor
    · refine List.eq_nil_iff_forall_not_mem.2 fun j hj => ?_
      have hstream : _ = (s.api.shared.channel hd.connectionId).sent := (piped h).stream _
      have hmem : j ∈ (s.api.shared.channel hd.connectionId).assignedJobs := by
        rw [Executor.Channel.assignedJobs, ← hstream, List.filterMap_append]
        exact List.mem_append_right _ hj
      exact notMem_pendingJobs h (received_of_exited h (hexited j hmem)) hj
    · cases hactive : (s.client hd.connectionId).active with
      | none => rfl
      | some j =>
        have hreceived := (sound h _).active j hactive
        obtain ⟨e, he, hj⟩ := hexited j (mem_sent_of_received (piped h) hreceived)
        have hopen := (Bool.and_eq_true_iff.1 hc).2
        simp only [at_, worker, gives, hended, hactive, Option.all_some, Bool.not_true,
          Bool.false_or, Bool.not_eq_true', List.any_eq_false, decide_eq_true_eq] at hopen
        exact absurd hj (hopen e he)

/-! ### One open assignment -/

theorem single_stepped {k k' : Client} {b : ClientAction} {rest : List ApiMessage}
    (hs : Client.StepCase config k b k') (hended : k'.ended = false)
    (h : k.ended = false → ((k.inbound ++ rest).filterMap ApiMessage.assigned).length +
      k.active.toList.length ≤ 1) :
    ((k'.inbound ++ rest).filterMap ApiMessage.assigned).length + k'.active.toList.length ≤ 1 := by
  cases hs with
  | received select next turn handles =>
    have h := h (Client.ended_of_select select)
    rw [next] at h
    cases handles with
    | assigned free =>
      rw [show k.active = none from free] at h
      exact h
    | accepted => exact h
    | refused => cases hended
  | delivered loop => exact h (Client.ended_of_deliver loop)
  | undelivered => cases hended
  | completed select active =>
    have h := h (Client.ended_of_select select)
    exact Nat.le_trans (Nat.add_le_add_left (Nat.zero_le _) _) h
  | completedOther select => exact h (Client.ended_of_select select)
  | closedIdle => cases hended
  | closed => cases hended
  | ran => exact h hended
  | wrote => exact h hended
  | finished => exact h hended
  | readCurrentJob => exact h hended
  | sentHeartbeat => exact h hended

theorem Single.step
    (hr : ReachableWhen (clusterSystem env config) (fun s a => s.assignsToIdle env a = true) s)
    (h : Single s) (hc : s.assignsToIdle env a = true) (hs : s.step env config a = some s') :
    Single s' := by
  intro c hended
  have hstream := step_stream (piped hr) hs c
  rw [pendingJobs]
  generalize s'.sent c = sent, s'.pending c = pending, s'.client c = k at hstream hended
  cases hstream with
  | same => exact h c hended
  | @sent t choice m run sends =>
    subst run
    have hold := h c hended
    rw [List.filterMap_append, List.length_append]
    cases sends with
    | assignment at_ chosen worker connection idle gives =>
      obtain ⟨hpending, hactive⟩ := idle_of_assigns hr hc
        (.assignment at_ chosen worker connection idle gives) hended
      rw [pendingJobs] at hpending
      rw [hpending, hactive]
      exact Nat.le_refl 1
    | command => exact hold
  | heard => exact h c hended
  | connected at_ fresh => exact h c (by rw [Client.ended, fresh])
  | transported => exact h c hended
  | stepped client step => exact single_stepped step hended (h c)

theorem single
    (h : ReachableWhen (clusterSystem env config) (fun s a => s.assignsToIdle env a = true) s) :
    Single s :=
  h.invariant (fun _ _ => Nat.zero_le 1) fun hr hi hc hstep => hi.step hr hc hstep

theorem commandControl_ne_busy {action : Option CommandAction} {e : ClientError}
    (h : Worker.commandControl action = .error e) : e ≠ Client.busyError := by
  unfold Worker.commandControl at h
  repeat' split at h
  all_goals cases h
  all_goals decide

theorem not_busy_stepped {k k' : Client} {b : ClientAction} (hs : Client.StepCase config k b k')
    (hfree : ∀ a rest, k.loop = .select → k.inbound = .assignment a :: rest → k.active = none)
    (h : k.loop ≠ .ended (some Client.busyError)) : k'.loop ≠ .ended (some Client.busyError) := by
  have hother : ∀ (k : Client) e, e ≠ Client.busyError →
      (k.fail e).loop ≠ .ended (some Client.busyError) := fun k e he hloop => by
    rw [Client.fail_loop] at hloop
    exact he (Option.some.inj (Worker.Loop.ended.inj hloop))
  cases hs with
  | received select next turn handles =>
    cases handles with
    | assigned => exact h
    | accepted => nofun
    | refused refuses =>
      refine hother _ _ ?_
      cases refuses with
      | empty => decide
      | busy active => cases (hfree _ _ select next).symm.trans active
      | idle => decide
      | other => decide
      | invalid active job invalid => exact commandControl_ne_busy invalid
  | delivered => nofun
  | undelivered => exact hother _ _ (by decide)
  | closedIdle => nofun
  | closed => nofun
  | _ => exact h

/-- The loop takes an assignment only while no job is active, so it never ends with the error
for an assignment to a busy worker. -/
theorem assignment_never_meets_busy_worker
    (h : ReachableWhen (clusterSystem env config) (fun s a => s.assignsToIdle env a = true) s)
    (c : Uuid) :
    (∀ a rest, (s.client c).loop = .select → (s.client c).inbound = .assignment a :: rest →
      (s.client c).active = none) ∧
    (s.client c).loop ≠ .ended (some Client.busyError) := by
  have hfree : ∀ {s}, Single s → ∀ c a rest, (s.client c).loop = .select →
      (s.client c).inbound = .assignment a :: rest → (s.client c).active = none := by
    intro s hsingle c a rest hselect hnext
    have hone := hsingle c (Client.ended_of_select hselect)
    have hpending : s.pendingJobs c = a.jobId :: (rest ++ (s.sent c).drop
        (s.api.shared.channel c).taken).filterMap ApiMessage.assigned := by
      rw [pendingJobs, pending, hnext]
      rfl
    rw [hpending, List.length_cons] at hone
    exact Option.toList_eq_nil_iff.1 (List.eq_nil_of_length_eq_zero (by omega))
  refine ⟨hfree (single h) c, ?_⟩
  refine h.invariant (I := fun s => ∀ c, (s.client c).loop ≠ .ended (some Client.busyError))
    (fun _ hend => by cases hend) (fun hr hi _ hstep c => ?_) c
  have hstream := step_stream (piped hr) hstep c
  generalize (_ : Cluster).sent c = sent, (_ : Cluster).pending c = pending,
    (_ : Cluster).client c = k at hstream
  cases hstream with
  | connected => simp
  | stepped client step => exact not_busy_stepped step (hfree (single hr) c) (hi c)
  | _ => exact hi c

end

def Schedule.oneJob : List Action :=
  Schedule.connect 0 "w" 100 ++ (Executor.Schedule.submit 1 [7, 8]).map .api ++
    Schedule.assign "w" 100 ++ .client 100 .receive :: Schedule.failJob 100 7 ++
    Schedule.hearFailure 0 "w" 7

/-- The worker has taken the completion of job 7 before it is given job 8. -/
theorem second_assignment_meets_idle_worker :
    ∃ s, ReachableWhen (clusterSystem .forTest .forTest) (fun s a => s.assignsToIdle .forTest a = true) s ∧
      ((s.client 100).loop = .select ∧ (s.client 100).inbound.map ApiMessage.assigned = [some 8] ∧
        (s.client 100).assignedJobs = [7]) ∧ (s.client 100).active = none := by
  obtain ⟨s, hs, hp⟩ := Transition.reachableWhen_of_execute
    (f := Cluster.step .forTest .forTest) (i := .new) (c := assignsToIdle .forTest)
    (Schedule.oneJob ++ [.client 100 .finish, .client 100 .complete] ++ Schedule.assign "w" 100)
    (p := fun s => (s.client 100).loop = .select ∧
      (s.client 100).inbound.map ApiMessage.assigned = [some 8] ∧ (s.client 100).assignedJobs = [7])
    (by decide +kernel)
  have hp := of_decide_eq_true hp
  refine ⟨s, hs, hp, ?_⟩
  obtain ⟨m, hm, hassigned⟩ := List.map_eq_singleton_iff.1 hp.2.1
  cases m with
  | assignment a => exact (assignment_never_meets_busy_worker hs 100).1 a [] hp.1 hm
  | command => cases hassigned
  | empty => cases hassigned

/-- Job 8 reaches the worker when the task of job 7 has sent its exit and not yet its
completion. -/
theorem second_assignment_meets_busy_worker :
    ∃ s, Transition.Reachable (clusterSystem .forTest .forTest) s ∧
      (s.client 100).loop = .ended (some Client.busyError) := by
  obtain ⟨s, hs, hp⟩ := Transition.reachable_of_execute
    (f := Cluster.step .forTest .forTest) (i := .new)
    (Schedule.oneJob ++ Schedule.assign "w" 100 ++ [.client 100 .receive])
    (p := fun s => (s.client 100).loop = .ended (some Client.busyError)) (by decide +kernel)
  exact ⟨s, hs, of_decide_eq_true hp⟩

end SmartC.Cluster
