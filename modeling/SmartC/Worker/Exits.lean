import SmartC.Worker.Slot

/-!
# Every job reports its exit

A job returns when it has enqueued its exit, or after an error whose exit could
not be enqueued in time. If that does not happen, the stream has an exit event
of every job that the loop has done with (`Reported`), and the event names a
reason that the API knows.
-/

namespace SmartC.Worker

open Executor (hasExitReason)
open Function (update)

/-! ### Reasons -/

def JobAt.hasReason : JobAt → Bool
  | .sendPhase _ _ _ reason | .sendExit _ _ reason => reason != .unspecified
  | _ => true

section

variable {config : WorkerConfig} {job job' : Job} {choice : JobChoice}

theorem afterCompile_hasReason (link : Bool) (outcome : CompileOutcome) :
    (Job.afterCompile link outcome).hasReason = true := by
  unfold Job.afterCompile
  repeat' split
  all_goals rfl

theorem afterRuntime_hasReason (outcome : RuntimeOutcome) :
    (Job.afterRuntime outcome).hasReason = true := by
  obtain ⟨code, signal, reason⟩ := outcome
  cases reason <;> rfl

theorem prepare_hasReason (error : Option String) :
    (job.prepare error).pc.hasReason = true := by
  unfold Job.prepare
  repeat' split
  all_goals rfl

theorem sendPayload_hasReason {payload : EventPayload} {next : JobAt} (result : SendResult)
    (h : next.hasReason = true) : (job.sendPayload payload next result).pc.hasReason = true := by
  cases result <;> first | exact h | rfl

theorem execute_hasReason (h : job.execute config choice = some job')
    (hreason : job.pc.hasReason = true) : job'.pc.hasReason = true := by
  unfold Job.execute at h
  split at h
  case h_1 => cases h; exact prepare_hasReason _
  case h_3 zero _ => cases h; cases zero <;> rfl
  case h_5 =>
    obtain ⟨-, hevent⟩ := compile_event h
    generalize job'.pc = pc at hevent
    cases hevent with
    | stopped outcome => exact afterCompile_hasReason _ outcome
    | exited => exact afterCompile_hasReason _ _
    | _ => rfl
  case h_9 =>
    obtain ⟨-, hevent⟩ := run_event h
    generalize job'.pc = pc at hevent
    cases hevent with
    | ended outcome => exact afterRuntime_hasReason outcome
    | _ => rfl
  case h_11 hpc =>
    cases h
    rw [hpc] at hreason
    exact sendPayload_hasReason _ hreason
  case h_4 | h_8 => split at h <;> cases h <;> rfl
  case h_13 | h_14 => cases h; rfl
  all_goals cases h
  all_goals exact sendPayload_hasReason _ rfl

theorem code_hasReason {reason : ExitReason} (h : reason ≠ .unspecified) (code signal : Option Int) :
    hasExitReason (.exit code signal reason.code) = true := by
  cases reason <;> first | rfl | exact absurd rfl h

theorem Flow.hasReason {pc pc' : JobAt} {e : Option EventPayload} (h : Flow pc e pc')
    (hreason : pc.hasReason = true) : e.all hasExitReason = true := by
  cases h with
  | @exit code signal reason =>
    exact code_hasReason (by simpa [JobAt.hasReason] using hreason) code signal
  | _ => rfl

/-! ### The last event -/

/-- The exit that follows an error is enqueued in time. -/
def Job.enqueuesExit (job : Job) : JobChoice → Bool
  | .send result => job.pc != .sendErrorExit || result == .sent
  | _ => true

theorem execute_returned (h : job.execute config choice = some job')
    (hexit : job.enqueuesExit choice = true) (hreturned : job'.pc = .returned) :
    ∃ code signal reason, job'.sent = job.sent ++ [.exit code signal reason] := by
  obtain ⟨e, hflow, hsent⟩ := execute_flows h
  rw [hreturned] at hflow
  generalize hpc : job.pc = pc at hflow
  cases hflow with
  | stay =>
    simp only [Job.execute, hpc] at h
    cases h
  | compile source target => cases target
  | run source target => cases target
  | exit => exact ⟨_, _, _, hsent⟩
  | errorExit => exact ⟨_, _, _, hsent⟩
  | errorExitLost =>
    cases choice with
    | send result =>
      obtain rfl : result = .sent := by simpa [Job.enqueuesExit, hpc] using hexit
      simp only [Job.execute, hpc, Option.some.injEq] at h
      subst h
      exact ⟨_, _, _, rfl⟩
    | _ =>
      simp only [Job.execute, hpc] at h
      cases h

end

/-! ### The connection -/

namespace Client

def enqueuesExit (k : Client) : ClientAction → Bool
  | .job j (.run choice) => (k.jobs j).enqueuesExit choice
  | _ => true

structure Reasoned (k : Client) : Prop where
  pc : ∀ j, (k.jobs j).pc.hasReason = true
  sent : ∀ j, ∀ x ∈ (k.jobs j).sent, hasExitReason x = true

/-- The active job is the last one assigned, and a job that has returned has told so. -/
structure Reported (k : Client) : Prop where
  latest : ∀ j, k.active = some j → k.assignedJobs.getLast? = some j
  exited : k.ended = false → ∀ j, j ∈ k.assignedJobs → (k.jobs j).pc = .returned →
    ∃ e, .event e ∈ k.emitted ∧ e.exited = some j

section

variable {config : WorkerConfig} {k k' : Client} {a : ClientAction}

theorem Reasoned.step (h : Reasoned k) (hs : StepCase config k a k') : Reasoned k' := by
  have hjob : ∀ j, (k'.jobs j).pc.hasReason = true ∧
      ∀ x ∈ (k'.jobs j).sent, hasExitReason x = true := by
    intro j
    have hstep := step_job hs j
    generalize k'.jobs j = job at hstep
    cases hstep with
    | same pc sent => exact ⟨pc ▸ h.pc j, sent ▸ h.sent j⟩
    | assigned => exact ⟨rfl, fun x hx => by cases hx⟩
    | ran picked run =>
      refine ⟨execute_hasReason run (h.pc j), fun x hx => ?_⟩
      obtain ⟨e, hflow, hsent⟩ := execute_flows run
      rw [hsent] at hx
      rcases List.mem_append.1 hx with hx | hx
      · exact h.sent j x hx
      · obtain rfl := Option.mem_toList.1 hx
        exact hflow.hasReason (h.pc j)
  exact ⟨fun j => (hjob j).1, fun j => (hjob j).2⟩

theorem Reported.step_latest (h : Reported k) (hs : StepCase config k a k') (j : Uuid)
    (hj : k'.active = some j) : k'.assignedJobs.getLast? = some j := by
  cases hs with
  | @received m rest k' select next turn handles =>
    cases handles with
    | assigned free =>
      obtain rfl := Option.some.inj hj
      exact (congrArg List.getLast? (assignedJobs_take k rest _)).trans List.getLast?_concat
    | accepted active =>
      exact (congrArg List.getLast? (assignedJobs_take k rest _)).trans
        ((congrArg List.getLast? (List.append_nil _)).trans (h.latest j hj))
    | refused => cases hj
  | undelivered => cases hj
  | completed => cases hj
  | _ => exact h.latest j hj

theorem setJob_pc {j : Uuid} (job : Job) (hjob : job.pc = (k.jobs j).pc) (i : Uuid) :
    (update k.jobs j job i).pc = (k.jobs i).pc := by
  by_cases hij : i = j
  · subst hij
    rw [Function.update_self, hjob]
  · rw [Function.update_of_ne hij]

theorem exit_mem_newEvents (hsound : Sound k) {j : Uuid} {job : Job} {code signal : Option Int}
    {reason : Int} (hsent : job.sent = (k.jobs j).sent ++ [.exit code signal reason]) :
    ∃ e, .event e ∈ k.newEvents j job ∧ e.exited = some j := by
  refine ⟨⟨k.workerId, (k.jobs j).assignment.jobId, some (.exit code signal reason)⟩, ?_, ?_⟩
  · rw [newEvents, hsent, List.drop_left]
    exact List.mem_singleton_self _
  · simp only [JobEvent.exited, hsound.jobId j]
    rfl

theorem Reported.step_exited (h : Reported k) (hsound : Sound k)
    (hexit : k.enqueuesExit a = true) (hs : StepCase config k a k') (hended : k'.ended = false)
    (j : Uuid) (hj : j ∈ k'.assignedJobs) (hreturned : (k'.jobs j).pc = .returned) :
    ∃ e, .event e ∈ k'.emitted ∧ e.exited = some j := by
  have hold : k.ended = false → j ∈ k.assignedJobs → (k.jobs j).pc = .returned →
      ∃ e, .event e ∈ k'.emitted ∧ e.exited = some j := by
    intro hended hj hreturned
    obtain ⟨e, he, hexited⟩ := h.exited hended j hj hreturned
    exact ⟨e, (emitted_grows hs).subset he, hexited⟩
  cases hs with
  | @received m rest k' select next turn handles =>
    have hselect := ended_of_select select
    cases handles with
    | @assigned a free =>
      have hreturned : (update k.jobs a.jobId (.new (.received a)) j).pc = .returned := hreturned
      -- a job that is assigned now has not returned
      by_cases hja : j = a.jobId
      · subst hja
        rw [Function.update_self] at hreturned
        cases hreturned
      · rw [Function.update_of_ne hja] at hreturned
        refine hold hselect ?_ hreturned
        have hmem : j ∈ k.assignedJobs ++ [a.jobId] := assignedJobs_take k rest (.assignment a) ▸ hj
        exact (List.mem_append.1 hmem).resolve_right fun hmem => hja (List.mem_singleton.1 hmem)
    | @accepted c =>
      refine hold hselect ?_ hreturned
      have hmem : j ∈ k.assignedJobs ++ [] := assignedJobs_take k rest (.command c) ▸ hj
      rwa [List.append_nil] at hmem
    | refused => cases hended
  | @delivered control i loop =>
    have hpc := setJob_pc { k.jobs i with controls := (k.jobs i).controls ++ [control] } rfl j
    exact hold (ended_of_deliver loop) hj (hpc.symm.trans hreturned)
  | undelivered => cases hended
  | completed select => exact hold (ended_of_select select) hj hreturned
  | completedOther select => exact hold (ended_of_select select) hj hreturned
  | closedIdle => cases hended
  | closed => cases hended
  | @ran i choice job running run =>
    have hreturned : (update k.jobs i job j).pc = .returned := hreturned
    by_cases hji : j = i
    · subst hji
      rw [Function.update_self] at hreturned
      -- the job returns in this step, after its exit was enqueued
      obtain ⟨code, signal, reason, hsent⟩ := execute_returned run hexit hreturned
      obtain ⟨e, he, hexited⟩ := exit_mem_newEvents hsound hsent
      exact ⟨e, List.mem_append_right _ he, hexited⟩
    · rw [Function.update_of_ne hji] at hreturned
      exact hold hended hj hreturned
  | wrote write =>
    exact hold hended hj ((setJob_pc _ (by rw [write_eq write]) j).symm.trans hreturned)
  | finished => exact hold hended hj hreturned
  | readCurrentJob => exact hold hended hj hreturned
  | sentHeartbeat => exact hold hended hj hreturned

theorem Reported.step (h : Reported k) (hsound : Sound k) (hexit : k.enqueuesExit a = true)
    (hs : StepCase config k a k') : Reported k' :=
  ⟨h.step_latest hs, h.step_exited hsound hexit hs⟩

end

end Client

end SmartC.Worker
