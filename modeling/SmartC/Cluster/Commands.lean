import SmartC.Cluster.Streams
import SmartC.Worker.Validation

/-!
# A command meets its job

A command is sent because the session had a worker a moment ago, and it is
delivered when the worker's loop comes to it. `Addressed` says that every
command on its way to a worker will find its job: the job's assignment is
before it on the stream, or the job is active and has not returned. It holds
as long as no command is sent after its job has returned and no job returns
with a command on its way.
-/

namespace SmartC.Cluster

open Executor (Tid Sends Pc)
open Transition (ReachableWhen EachAfter)
open Worker (Client ClientAction ClientError JobControl WorkerConfig commandControl)

/-! ### Commands of the API are valid for the worker -/

/-- The worker can turn the action of a command into a control. -/
def Deliverable (action : CommandAction) : Prop :=
  ∃ control, commandControl (some action) = .ok control

def WellFormed : ApiMessage → Prop
  | .assignment _ => True
  | .command c => ∃ control, commandControl c.action = .ok control
  | .empty => False

theorem deliverable_stdin {data : Bytes} (h : data.length ≤ 8 * 1024) :
    Deliverable (.stdin data) :=
  ⟨.input data, if_neg (Nat.not_lt.2 h)⟩

theorem deliverable_resize {cols rows : UInt16}
    (h : Executor.validateTerminal ⟨cols, rows⟩ = .ok ()) :
    Deliverable (.resize cols.toUInt32 rows.toUInt32) := by
  have hsize : Worker.isTerminalSize cols rows = true := by
    simp only [Executor.validateTerminal] at h
    split at h
    · next hrange => simp [Worker.isTerminalSize, hrange]
    · cases h
  refine ⟨.resize cols rows, ?_⟩
  simp only [commandControl, Worker.tryU16_toUInt32, hsize, if_true]

theorem deliverable_cancel (reason : String) : Deliverable (.cancel reason) := by
  by_cases hlimit : "resource_limit:".toList.isPrefixOf reason.toList = true
  · exact ⟨.resourceLimit, if_pos hlimit⟩
  · exact ⟨.cancel, if_neg hlimit⟩

structure Valid (s : Cluster) : Prop where
  command : ∀ t j action, (s.api.task t).pc.command = some (j, action) → Deliverable action
  sent : ∀ c, ∀ m ∈ s.sent c, WellFormed m

section

variable {env : Executor.Env} {config : WorkerConfig} {C : Cluster → Action → Prop}
  {s s' : Cluster} {a : Action} {c j : Uuid}

theorem Valid.step (h : Valid s) (hp : Piped s) (hs : s.step env config a = some s') :
    Valid s' := by
  constructor
  · refine tasks_step (P := fun _ pc => ∀ j action, pc.command = some (j, action) →
      Deliverable action) hs h.command ?_ ?_ ?_
    · intro n op _ hop j action hpc
      cases op <;> cases hpc
    · intro _ r f j action hpc
      rw [Pc.command_of_intake (Executor.Frame.resume_intake r f)] at hpc
      cases hpc
    · intro t choice o _ _ ho j action hpc
      have hintake := Executor.exec_intake ho
      have hold := h.command t
      generalize (s.api.task t).pc = pc at hintake hold
      cases hintake with
      | other accepted later =>
        rw [Pc.command_of_intake later] at hpc
        cases hpc
      | stdin short => cases hpc; exact deliverable_stdin short
      | resize valid => cases hpc; exact deliverable_resize valid
      | stop => cases hpc; exact deliverable_cancel _
      | named => cases hpc; exact hold j action rfl
      | found => cases hpc; exact hold j action rfl
      | _ => cases hpc
  · intro c
    have hstream := step_stream hp hs c
    generalize s'.sent c = sent, s'.pending c = pending, s'.client c = k at hstream
    cases hstream with
    | @sent t choice m run sends =>
      intro m' hm'
      rcases List.mem_append.1 hm' with hm' | hm'
      · exact h.sent c m' hm'
      · rw [List.mem_singleton.1 hm']
        cases sends with
        | assignment => trivial
        | @command j action w at_ => exact h.command t j action (by rw [at_]; rfl)
    | _ => exact h.sent c

theorem valid (h : ReachableWhen (clusterSystem env config) C s) : Valid s := by
  refine h.invariant ⟨fun t j action ht => ?_, nofun⟩ fun hr hi _ hstep => hi.step (piped hr) hstep
  cases t with
  | dispatcher => cases ht
  | task => cases ht

/-! ### Commands on their way -/

end

def Hosts (k : Client) (j : Uuid) : Prop := k.active = some j ∧ (k.jobs j).pc ≠ .returned

structure Addressed (k : Client) (pending : List ApiMessage) : Prop where
  pending : EachAfter (fun before m => ∀ cmd, m = .command cmd →
    cmd.jobId ∈ before.filterMap ApiMessage.assigned ∨ Hosts k cmd.jobId) pending
  delivering : ∀ control, k.loop = .deliver control → ∃ j, Hosts k j

def commanded : ApiMessage → Option Uuid
  | .command cmd => some cmd.jobId
  | _ => none

/-- No command for job `j` is on its way to the worker of connection `c`. -/
def quietFor (s : Cluster) (c j : Uuid) : Bool :=
  (s.pending c).all (fun m => commanded m ≠ some j) &&
    match (s.client c).loop with
    | .deliver _ => false
    | _ => true

/-- While the worker's loop runs: a command is put on the channel before the job has returned, the
assignment may still be on its way; and the job returns with no command on its way. -/
def commandsMeetJob (config : WorkerConfig) (s : Cluster) : Action → Bool
  | .api (.run t _) =>
    match (s.api.task t).pc with
    | .sendCommandSend j _ _ c =>
      !(s.api.shared.channel c).hasRoom || (s.client c).ended || decide (j ∈ s.pendingJobs c) ||
        decide (((s.client c).jobs j).pc ≠ .returned)
    | _ => true
  | .client c (.job j (.run choice)) =>
    match ((s.client c).jobs j).execute config choice with
    | some job => (s.client c).ended || decide (job.pc ≠ .returned) || s.quietFor c j
    | none => true
  | _ => true

section

variable {env : Executor.Env} {config : WorkerConfig} {s s' : Cluster} {a : Action} {c j : Uuid}
  {k k' : Client} {b : ClientAction} {rest : List ApiMessage}

theorem Hosts.of_live (h : k.Sound) (hended : k.ended = false) (hpc : (k.jobs j).pc ≠ .returned) :
    Hosts k j := by
  have hrunning : k.running = some j := not_not.1 fun hne => hpc (h.returned j hne)
  have hslot := h.slot hended
  rw [hrunning] at hslot
  refine ⟨?_, hpc⟩
  generalize k.active = active, k.currentJob = current, k.completions = completions at hslot
  cases hslot
  rfl

theorem Addressed.keep {pending : List ApiMessage} (h : Addressed k pending)
    (hhosts : ∀ j, Hosts k j → Hosts k' j)
    (hloop : ∀ control, k'.loop = .deliver control → ∃ control', k.loop = .deliver control') :
    Addressed k' pending where
  pending := h.pending.mono fun before m hm cmd hcmd => (hm cmd hcmd).imp_right (hhosts _)
  delivering control hdeliver := by
    obtain ⟨control', hold⟩ := hloop control hdeliver
    obtain ⟨j, hj⟩ := h.delivering control' hold
    exact ⟨j, hhosts j hj⟩

theorem Hosts.setJob {job : Worker.Job} {i : Uuid} (h : Hosts k i)
    (hjob : i = j → job.pc ≠ .returned) : Hosts (k.setJob j job) i := by
  refine ⟨h.1, ?_⟩
  by_cases hij : i = j
  · subst hij
    simpa only [Client.setJob, Function.update_self] using hjob rfl
  · simpa only [Client.setJob, Function.update_of_ne hij] using h.2

/-- The loop takes a message: an assignment starts the job of the commands behind it, and a
command is for the job that is active. -/
theorem Addressed.received {m : ApiMessage} (h : Addressed k (m :: rest))
    (hselect : k.loop = .select) (hh : Client.Handles k m k') (hended : k'.ended = false) :
    Addressed k' rest := by
  cases hh with
  | @assigned a free =>
    refine ⟨h.pending.tail.mono fun before m hm cmd hcmd => ?_, fun control hloop => ?_⟩
    · rcases hm cmd hcmd with hmem | hhosts
      · rcases List.mem_cons.1 hmem with hjob | hmem
        · right
          rw [hjob]
          exact ⟨rfl, by simp [Client.setJob, Worker.Job.new]⟩
        · exact .inl hmem
      · cases free.symm.trans hhosts.1
    · cases hselect.symm.trans hloop
  | @accepted cmd j control active job valid =>
    refine ⟨h.pending.tail, fun _ _ => ?_⟩
    rcases h.pending [] (.command cmd) rest rfl cmd rfl with hmem | hhosts
    · cases hmem
    · exact ⟨_, hhosts⟩
  | refused => cases hended

theorem not_hosts_completed (h : k.Sound) (hselect : k.loop = .select) (hactive : k.active = some j)
    (hnext : k.completions = j :: rest') (i : Uuid) : ¬ Hosts k i := by
  intro hhosts
  have hslot := h.slot (Client.ended_of_select hselect)
  rw [hactive, hnext] at hslot
  obtain ⟨-, ⟨-, hnil⟩ | ⟨hrunning, -⟩⟩ := hslot.of_some
  · cases hnil
  · exact hhosts.2 (h.returned i (by rw [hrunning]; nofun))

theorem Addressed.stepped (hsound : k.Sound) (hs : Client.StepCase config k b k')
    (hended : k'.ended = false)
    (hquiet : ∀ j choice job, b = .job j (.run choice) →
      (k.jobs j).execute config choice = some job → job.pc ≠ .returned ∨
        (∀ m ∈ k.inbound ++ rest, commanded m ≠ some j) ∧ ∀ control, k.loop ≠ .deliver control)
    (h : k.ended = false → Addressed k (k.inbound ++ rest)) :
    Addressed k' (k'.inbound ++ rest) := by
  cases hs with
  | @received m rest' k' select next turn handles =>
    have h := h (Client.ended_of_select select)
    rw [next] at h
    have hinbound : k'.inbound = rest' := by
      cases handles with
      | assigned => rfl
      | accepted => rfl
      | refused => exact (Client.fail_frame (k := _) _).2.1
    rw [hinbound]
    have htaken : Addressed { k with inbound := rest', received := k.received ++ [m] }
        (m :: (rest' ++ rest)) := ⟨h.pending, h.delivering⟩
    exact htaken.received select handles hended
  | delivered loop active live room =>
    exact (h (Client.ended_of_deliver loop)).keep
      (fun i hi => hi.setJob (by rintro rfl; exact live)) nofun
  | undelivered => cases hended
  -- a job whose completion is taken has returned
  | completed select active next =>
    exact (h (Client.ended_of_select select)).keep
      (fun i hi => absurd hi (not_hosts_completed hsound select active next i))
      (fun control hloop => ⟨control, hloop⟩)
  | completedOther select =>
    exact (h (Client.ended_of_select select)).keep (fun _ hi => hi)
      (fun control hloop => ⟨control, hloop⟩)
  | closedIdle => cases hended
  | closed => cases hended
  | @ran j choice job running run =>
    have h := h hended
    rcases hquiet j choice job rfl run with hlive | ⟨hnone, hidle⟩
    · exact h.keep (fun i hi => hi.setJob fun _ => hlive) (fun control hloop => ⟨control, hloop⟩)
    · -- The job may have returned, but nobody is waiting for it.
      refine ⟨fun before m after hsplit cmd hcmd => ?_, fun control hloop => absurd hloop (hidle control)⟩
      have hne : cmd.jobId ≠ j := fun heq => by
        refine hnone m ?_ (by rw [hcmd, ← heq]; rfl)
        rw [show k.inbound ++ rest = _ from hsplit]
        exact List.mem_append_right _ List.mem_cons_self
      exact (h.pending before m after hsplit cmd hcmd).imp_right
        fun hhosts => hhosts.setJob fun heq => absurd heq hne
  | @wrote j error job write =>
    refine (h hended).keep (fun i hi => hi.setJob ?_) (fun control hloop => ⟨control, hloop⟩)
    rintro rfl
    rw [Client.write_eq write]
    exact hi.2
  | finished => exact (h hended).keep (fun _ hi => hi) (fun control hloop => ⟨control, hloop⟩)
  | readCurrentJob =>
    exact (h hended).keep (fun _ hi => hi) (fun control hloop => ⟨control, hloop⟩)
  | sentHeartbeat =>
    exact (h hended).keep (fun _ hi => hi) (fun control hloop => ⟨control, hloop⟩)

/-! ### Runs -/

theorem quietFor_iff : s.quietFor c j = true ↔ (∀ m ∈ s.pending c, commanded m ≠ some j) ∧
    ∀ control, (s.client c).loop ≠ .deliver control := by
  simp only [quietFor, Bool.and_eq_true, List.all_eq_true, decide_eq_true_eq]
  refine and_congr_right fun _ => ?_
  cases (s.client c).loop <;> simp

theorem addressed_of_meets {t : Tid} {choice : Executor.Choice} {action : CommandAction}
    {w : String} (hsound : (s.client c).Sound) (hended : (s.client c).ended = false)
    (hc : s.commandsMeetJob config (.api (.run t choice)) = true)
    (hpc : (s.api.task t).pc = .sendCommandSend j action w c)
    (hroom : (s.api.shared.channel c).hasRoom = true) :
    j ∈ s.pendingJobs c ∨ Hosts (s.client c) j := by
  simp only [commandsMeetJob, hpc, hroom, hended, Bool.not_true, Bool.false_or, Bool.or_eq_true,
    decide_eq_true_eq] at hc
  exact hc.imp_right (Hosts.of_live hsound hended)

theorem addressed_step
    (hr : ReachableWhen (clusterSystem env config)
      (fun s a => s.commandsMeetJob config a = true) s)
    (h : ∀ c, (s.client c).ended = false → Addressed (s.client c) (s.pending c))
    (hc : s.commandsMeetJob config a = true) (hs : s.step env config a = some s') (c : Uuid)
    (hended : (s'.client c).ended = false) : Addressed (s'.client c) (s'.pending c) := by
  have hsound := sound hr c
  have hstream := step_stream (piped hr) hs c
  generalize s'.sent c = sent, s'.pending c = pending, s'.client c = k at hstream hended
  cases hstream with
  | same => exact h c hended
  | @sent t choice m run sends =>
    subst run
    have h := h c hended
    refine ⟨h.pending.append fun cmd hcmd => ?_, h.delivering⟩
    cases sends with
    | assignment => cases hcmd
    | command at_ room =>
      cases hcmd
      exact addressed_of_meets hsound hended hc at_ room
  | heard => exact (h c hended).keep (fun _ hi => hi) fun control hloop => ⟨control, hloop⟩
  | connected at_ fresh =>
    exact (h c (by rw [Client.ended, fresh])).keep (fun _ hi => hi) nofun
  | transported => exact (h c hended).keep (fun _ hi => hi) fun control hloop => ⟨control, hloop⟩
  | @stepped b k client step =>
    subst client
    refine Addressed.stepped hsound step hended (fun j choice job hb hjob => ?_) (h c)
    subst hb
    by_cases hlive : job.pc = .returned
    · have hrunning : (s.client c).ended = false := by
        cases step with
        | ran running run => exact hended
      simp only [commandsMeetJob, hjob, hrunning, hlive, ne_eq, not_true_eq_false, decide_false,
        Bool.false_or] at hc
      exact .inr (quietFor_iff.1 hc)
    · exact .inl hlive

theorem addressed
    (h : ReachableWhen (clusterSystem env config)
      (fun s a => s.commandsMeetJob config a = true) s) (c : Uuid)
    (hended : (s.client c).ended = false) : Addressed (s.client c) (s.pending c) := by
  refine h.invariant (I := fun s => ∀ c, (s.client c).ended = false →
    Addressed (s.client c) (s.pending c)) (fun c _ => ⟨.nil, nofun⟩)
    (fun hr hi hc hstep => addressed_step hr hi hc hstep) c hended

/-- No command ends the loop. -/
theorem error_stepped (hs : Client.StepCase config k b k')
    (h : k.ended = false → Addressed k (k.inbound ++ rest))
    (hvalid : ∀ m ∈ k.inbound, WellFormed m)
    (hold : ∀ e, k.loop = .ended (some e) → e = Client.busyError) (e : ClientError)
    (he : k'.loop = .ended (some e)) : e = Client.busyError := by
  cases hs with
  | @received m rest' k' select next turn handles =>
    have h := h (Client.ended_of_select select)
    rw [next] at h
    have hm := hvalid m (by rw [next]; exact List.mem_cons_self)
    cases handles with
    | assigned => exact hold e he
    | accepted => cases he
    | refused refuses =>
      rw [Client.fail_loop] at he
      cases he
      cases refuses with
      | empty => exact hm.elim
      | busy => rfl
      -- a command at the head of the stream is for the active job
      | @idle cmd active =>
        rcases h.pending [] _ _ rfl cmd rfl with hmem | hhosts
        · cases hmem
        · cases hhosts.1.symm.trans active
      | @other cmd j active other =>
        rcases h.pending [] _ _ rfl cmd rfl with hmem | hhosts
        · cases hmem
        · exact absurd (Option.some.inj (hhosts.1.symm.trans active)) other
      | invalid active job invalid =>
        obtain ⟨control, hcontrol⟩ := hm
        cases hcontrol.symm.trans invalid
  | delivered => cases he
  -- a control that is being delivered is for a job that has not returned
  | undelivered loop active returned =>
    obtain ⟨i, hi⟩ := (h (Client.ended_of_deliver loop)).delivering _ loop
    obtain rfl := Option.some.inj (active.symm.trans hi.1)
    exact absurd returned hi.2
  | closedIdle => cases he
  | closed => cases he
  | _ => exact hold e he

theorem error_step
    (hr : ReachableWhen (clusterSystem env config)
      (fun s a => s.commandsMeetJob config a = true) s)
    (h : ∀ c e, (s.client c).loop = .ended (some e) → e = Client.busyError)
    (hs : s.step env config a = some s') (c : Uuid) (e : ClientError)
    (he : (s'.client c).loop = .ended (some e)) : e = Client.busyError := by
  have hvalid : ∀ m ∈ (s.client c).inbound, WellFormed m := fun m hm => by
    refine (valid hr).sent c m ?_
    rw [← (piped hr).stream c]
    exact List.mem_append_right _ (List.mem_append_left _ hm)
  have hstream := step_stream (piped hr) hs c
  generalize s'.sent c = sent, s'.pending c = pending, s'.client c = k at hstream he
  cases hstream with
  | connected => cases he
  | stepped client step => exact error_stepped step (addressed hr c) hvalid (h c) e he
  | _ => exact h c e he

/-- The loop comes to a command while its job is active and has not returned, so no command
makes `connect_once` return an error. -/
theorem commands_never_break_connection
    (h : ReachableWhen (clusterSystem env config)
      (fun s a => s.commandsMeetJob config a = true) s) (c : Uuid) :
    (∀ cmd rest, (s.client c).loop = .select → (s.client c).inbound = .command cmd :: rest →
      (s.client c).active = some cmd.jobId ∧ ((s.client c).jobs cmd.jobId).pc ≠ .returned) ∧
    ∀ e, (s.client c).loop = .ended (some e) → e = Client.busyError := by
  refine ⟨fun cmd rest hselect hnext => ?_, ?_⟩
  · have haddressed := addressed h c (Client.ended_of_select hselect)
    rcases haddressed.pending [] (.command cmd) _ (by rw [pending, hnext]; rfl) cmd rfl
      with hmem | hhosts
    · cases hmem
    · exact hhosts
  · exact h.invariant (I := fun s => ∀ c e, (s.client c).loop = .ended (some e) →
      e = Client.busyError) (fun _ _ hend => by cases hend)
      (fun hr hi _ hstep => error_step hr hi hstep) c

end

/-! ### A cancellation before and after the end of the job -/

def Schedule.activeJob : List Action :=
  Schedule.connect 0 "w" 100 ++ (Executor.Schedule.submit 1 [7]).map .api ++
    Schedule.assign "w" 100 ++ [.client 100 .receive]

def Schedule.cancel : List Action :=
  (.start 4 (.cancelExecution 7 "user_terminated") :: Executor.Schedule.go 4 4).map .api ++
    [.transport 100]

theorem cancellation_meets_active_job :
    ∃ s, ReachableWhen (clusterSystem .forTest .forTest)
        (fun s a => s.commandsMeetJob .forTest a = true) s ∧
      ((s.client 100).loop = .select ∧
        (s.client 100).inbound = [.command ⟨7, some (.cancel "user_terminated")⟩]) ∧
      (s.client 100).active = some 7 := by
  obtain ⟨s, hs, hp⟩ := Transition.reachableWhen_of_execute
    (f := Cluster.step .forTest .forTest) (i := .new) (c := commandsMeetJob .forTest)
    (Schedule.activeJob ++ Schedule.cancel)
    (p := fun s => (s.client 100).loop = .select ∧
      (s.client 100).inbound = [.command ⟨7, some (.cancel "user_terminated")⟩])
    (by decide +kernel)
  have hp := of_decide_eq_true hp
  exact ⟨s, hs, hp, ((commands_never_break_connection hs 100).1 _ [] hp.1 hp.2).1⟩

/-- The job has sent its exit when the cancellation arrives. If the loop has taken the completion,
it has no job for the command; if not, the control channel is closed. -/
theorem cancellation_breaks_connection :
    (∃ s, Transition.Reachable (clusterSystem .forTest .forTest) s ∧ (s.client 100).loop =
      .ended (some (.protocol "実行中でないWorkerへ操作が届きました"))) ∧
    ∃ s, Transition.Reachable (clusterSystem .forTest .forTest) s ∧
      (s.client 100).loop = .ended (some .jobControlClosed) := by
  constructor
  · obtain ⟨s, hs, hp⟩ := Transition.reachable_of_execute
      (f := Cluster.step .forTest .forTest) (i := .new)
      (Schedule.activeJob ++ Schedule.failJob 100 7 ++ Schedule.cancel ++
        [.client 100 .finish, .client 100 .complete, .client 100 .receive])
      (p := fun s => (s.client 100).loop =
        .ended (some (.protocol "実行中でないWorkerへ操作が届きました"))) (by decide +kernel)
    exact ⟨s, hs, of_decide_eq_true hp⟩
  · obtain ⟨s, hs, hp⟩ := Transition.reachable_of_execute
      (f := Cluster.step .forTest .forTest) (i := .new)
      (Schedule.activeJob ++ Schedule.failJob 100 7 ++ Schedule.cancel ++
        [.client 100 .receive, .client 100 .deliver])
      (p := fun s => (s.client 100).loop = .ended (some .jobControlClosed)) (by decide +kernel)
    exact ⟨s, hs, of_decide_eq_true hp⟩

end SmartC.Cluster
