import SmartC.Cluster.Streams
import SmartC.Executor.Phases
import SmartC.Executor.Routes
import SmartC.Executor.Websocket
import SmartC.Worker.Input

/-!
# Input from the browser to the program

Input passes `send_stdin`, the channel of the connection, the worker's loop and
the job's control channel before the writer thread gets it. The API accepts
input only in the phase `Running`, and a session enters that phase only after
its job has announced that it runs, so no input can meet `run_compile_process`.
The frames keep the order in which they were enqueued, since all that a program
gets went to the connection on which its job was assigned.
-/

namespace SmartC.Cluster

open Executor (Tid Pc Sends)
open Function (update)
open Transition (ReachableWhen RecordedWhen)
open Worker (Client JobChoice JobPhase WorkerConfig stdinOf stdinFor)

/-! ### Input presupposes that the program runs -/

def Started (s : Cluster) (j : Uuid) : Prop :=
  ∃ c, .phase JobPhase.running.code ∈ ((s.client c).jobs j).sent

/-- The job that must have announced that it runs for an operation to be at this point. -/
def presupposes : Pc → Option Uuid
  | .handleWorkerEventSession j (some (.phase n)) | .applyPhase j n => if n = 4 then some j else none
  | .completeSession j e .finish => if e.phase = .running then some j else none
  | .sendCommand j (.stdin _) | .sendCommandWorker j (.stdin _) _
  | .sendCommandSend j (.stdin _) _ _ => some j
  | _ => none

structure Causal (s : Cluster) : Prop where
  early : ∀ c j, ((s.client c).jobs j).pc.isEarly = true →
    .phase JobPhase.running.code ∉ ((s.client c).jobs j).sent
  pc : ∀ t j, presupposes (s.api.task t).pc = some j → s.Started j
  phase : ∀ j, (s.api.shared.inner j).phase = .running → s.Started j
  sent : ∀ c j, stdinOf j (s.sent c) ≠ [] → s.Started j

section

variable {env : Executor.Env} {config : WorkerConfig} {C : Cluster → Action → Prop}
  {s s' : Cluster} {a : Action} {c j : Uuid}

theorem presupposes_of_intake {pc : Pc} (h : pc.intake = false) : presupposes pc = none := by
  cases pc with
  | completeSession i e stage =>
    cases stage with
    | finish => exact if_neg (ne_of_beq_false h)
    | _ => rfl
  | _ => first | rfl | cases h

theorem presupposes_session {payload : Option EventPayload} {i : Uuid}
    (h : presupposes (.handleWorkerEventSession i payload) = some j) :
    payload = some (.phase 4) ∧ i = j := by
  unfold presupposes at h
  split at h
  case h_1 hpc =>
    cases hpc
    split at h <;> cases h
    next hn => exact ⟨by rw [hn], rfl⟩
  all_goals contradiction

theorem Started.step (hr : ReachableWhen (clusterSystem env config) C s)
    (hs : s.step env config a = some s') (h : s.Started j) : s'.Started j := by
  obtain ⟨c, hc⟩ := h
  have hgrows := ((step_stream (piped hr) hs c).job j).sent_grows (sound hr c) (assignsOnce hr c)
  exact ⟨c, hgrows.subset hc⟩

theorem Started.received (hr : ReachableWhen (clusterSystem env config) C s) (h : s.Started j) :
    ∃ c, .phase JobPhase.running.code ∈ ((s.client c).jobs j).sent ∧
      j ∈ (s.client c).assignedJobs := by
  obtain ⟨c, hc⟩ := h
  refine ⟨c, hc, ?_⟩
  by_contra habsent
  rw [(sound hr c).absent j habsent] at hc
  cases hc

theorem early_step {k : Client} {job : Worker.Job} {chosen : JobChoice → Prop}
    (h : Client.JobStep config k chosen j job)
    (hold : (k.jobs j).pc.isEarly = true → .phase JobPhase.running.code ∉ (k.jobs j).sent)
    (hpc : job.pc.isEarly = true) : .phase JobPhase.running.code ∉ job.sent := by
  cases h with
  | same pc sent =>
    rw [sent]
    exact hold (pc ▸ hpc)
  | assigned => exact List.not_mem_nil
  | ran choice run =>
    obtain ⟨e, hflow, hsent⟩ := Worker.execute_flows run
    obtain ⟨hearly, hne⟩ := hflow.early hpc
    rw [hsent, List.mem_append, not_or]
    refine ⟨hold hearly, fun hmem => hne ?_⟩
    exact Option.mem_toList.1 hmem

theorem started_of_event {e : JobEvent} (hr : ReachableWhen (clusterSystem env config) C s)
    (he : .event e ∈ (s.client c).emitted) (hj : e.jobId.parse = some j)
    (hp : e.payload = some (.phase 4)) : s.Started j := by
  obtain ⟨-, i, payload, hid, hpayload, hmem⟩ := (honest hr c).event e he
  rw [hid] at hj
  cases hj
  cases hp.symm.trans hpayload
  exact ⟨c, hmem⟩

theorem Causal.pc_step (h : Causal s) (hr : ReachableWhen (clusterSystem env config) C s)
    (hs : s.step env config a = some s') (t : Tid) (j : Uuid)
    (hj : presupposes (s'.api.task t).pc = some j) : s'.Started j := by
  refine Started.step hr hs (tasks_step (P := fun _ pc => ∀ j, presupposes pc = some j →
    s.Started j) hs h.pc ?_ ?_ ?_ t j hj)
  · intro n op _ hop j hpc
    cases op <;> cases hpc
  · intro _ r f j hpc
    rw [presupposes_of_intake (Executor.Frame.resume_intake r f)] at hpc
    cases hpc
  · intro t choice o _ _ ho j hpc
    have hintake := Executor.exec_intake ho
    have hold := h.pc t
    generalize hat : (s.api.task t).pc = pc at hintake hold
    cases hintake with
    | other accepted later =>
      rw [presupposes_of_intake later] at hpc
      cases hpc
    | @accepted c e i hd job worker connection current =>
      obtain ⟨hpayload, rfl⟩ := presupposes_session hpc
      exact started_of_event hr ((heard hr).handles t c e hat) job hpayload
    | phase => exact hold j hpc
    | stdin short running =>
      cases hpc
      exact h.phase j running
    | @named i action w =>
      cases action with
      | stdin data => exact hold j hpc
      | _ => cases hpc
    | @found i action w c =>
      cases action with
      | stdin data => exact hold j hpc
      | _ => cases hpc
    | _ => cases hpc

theorem Causal.phase_step (h : Causal s) (hs : s.step env config a = some s') (j : Uuid)
    (hj : (s'.api.shared.inner j).phase = .running) : s.Started j := by
  cases step_cases hs with
  | connect => exact h.phase j hj
  | client => exact h.phase j hj
  | transport hnext hstep =>
    obtain ⟨ch, -, rfl⟩ := Option.map_eq_some_iff.1 hstep
    exact h.phase j hj
  | api hadmits hstep =>
    cases Executor.State.step_cases hstep with
    | start => exact h.phase j hj
    | resume => exact h.phase j hj
    | outside ho => cases ho <;> exact h.phase j hj
    | @exec t choice o ho =>
      rcases Executor.exec_running ho hj with hold | hpc | ⟨e, hpc, hrunning⟩
      · exact h.phase j hold
      · exact h.pc t j (by rw [hpc]; rfl)
      · exact h.pc t j (by rw [hpc]; exact if_pos hrunning)

theorem Causal.step (h : Causal s) (hr : ReachableWhen (clusterSystem env config) C s)
    (hs : s.step env config a = some s') : Causal s' where
  early c j := early_step ((step_stream (piped hr) hs c).job j) (h.early c j)
  pc := h.pc_step hr hs
  phase j hj := (h.phase_step hs j hj).step hr hs
  sent c j hj := by
    refine Started.step hr hs ?_
    have hstream := step_stream (piped hr) hs c
    generalize s'.sent c = sent, s'.pending c = pending, s'.client c = k at hstream hj
    cases hstream with
    | @sent t choice m run sends =>
      rw [Worker.stdinOf_append] at hj
      by_cases hold : stdinOf j (s.sent c) = []
      · cases sends with
        | assignment => exact absurd (by rw [hold]; rfl) hj
        | @command i action w at_ =>
          obtain ⟨data, hdata⟩ : ∃ data, stdinFor j (.command ⟨i, some action⟩) = some data := by
            refine Option.ne_none_iff_exists'.1 fun hnone => hj ?_
            rw [hold, hnone]
            rfl
          obtain ⟨rfl, rfl⟩ := Worker.stdinFor_eq_some hdata
          exact h.pc t i (by rw [at_]; rfl)
      · exact h.sent c j hold
    | _ => exact h.sent c j hj

theorem causal (h : ReachableWhen (clusterSystem env config) C s) : Causal s := by
  refine h.invariant ⟨fun _ _ _ => List.not_mem_nil, fun t j ht => ?_, nofun, fun c j hc => ?_⟩
    fun hr hi _ hstep => hi.step hr hstep
  · cases t <;> cases ht
  · exact absurd rfl hc

/-! ### What the writer has been handed -/

theorem received_stdin (hp : Piped s) : stdinOf j (s.client c).received <+: stdinOf j (s.sent c) := by
  rw [← hp.stream c]
  exact (List.prefix_append _ _).filterMap _

theorem stdin_of_early (hr : ReachableWhen (clusterSystem env config) C s)
    (hearly : ((s.client c).jobs j).pc.isEarly = true) : stdinOf j (s.client c).received = [] := by
  by_contra hne
  have hsent : stdinOf j (s.sent c) ≠ [] := fun hnil =>
    hne (List.prefix_nil.1 (hnil ▸ received_stdin (piped hr)))
  obtain ⟨c', hrunning, hj⟩ := ((causal hr).sent c j hsent).received hr
  have hlive : j ∈ (s.client c).assignedJobs := by
    by_contra habsent
    rw [(sound hr c).absent j habsent] at hearly
    cases hearly
  have hp := piped hr
  obtain rfl : c = c' :=
    (assigned_once hr c).2 c' j (mem_sent_of_received hp hlive) (mem_sent_of_received hp hj)
  exact (causal hr).early c j hearly hrunning

theorem stdin_of_assignment {m : JobAssignment} {rest : List ApiMessage}
    (hr : ReachableWhen (clusterSystem env config) C s)
    (hnext : (s.client c).inbound = .assignment m :: rest) :
    stdinOf m.jobId (s.client c).received = [] := by
  by_contra hne
  have hsent : stdinOf m.jobId (s.sent c) ≠ [] := fun hnil =>
    hne (List.prefix_nil.1 (hnil ▸ received_stdin (piped hr)))
  obtain ⟨c', -, hj⟩ := ((causal hr).sent c m.jobId hsent).received hr
  have hmem : m.jobId ∈ (s.sent c).filterMap ApiMessage.assigned := by
    refine List.mem_filterMap.2 ⟨.assignment m, ?_, rfl⟩
    rw [← (piped hr).stream c, pending, hnext]
    exact List.mem_append_right _ (List.mem_append_left _ List.mem_cons_self)
  obtain rfl : c = c' :=
    (assigned_once hr c).2 c' m.jobId hmem (mem_sent_of_received (piped hr) hj)
  exact assignsOnce hr c m rest hnext hj

theorem fed (h : ReachableWhen (clusterSystem env config) C s) (c j : Uuid) :
    (s.client c).Fed j := by
  refine h.invariant (I := fun s => ∀ c j, (s.client c).Fed j) (fun _ _ => .new) ?_ c j
  intro s s' a hr hi _ hs c j
  have hold := hi c j
  have hstream := step_stream (piped hr) hs c
  generalize s'.sent c = sent, s'.pending c = pending, s'.client c = k at hstream
  cases hstream with
  | same => exact hold
  | sent => exact hold
  | heard => exact hold.keep rfl rfl (fun hlive => ⟨hlive, rfl⟩) id
  | connected at_ fresh =>
    refine hold.keep rfl rfl (fun hlive => ⟨hlive, ?_⟩) fun _ => by rw [Client.ended, fresh]
    simp only [Client.waiting, Client.delivering, fresh]
  | transported => exact hold.keep rfl rfl (fun hlive => ⟨hlive, rfl⟩) id
  | stepped client step =>
    exact hold.step (stdin_of_early hr) (fun m rest => stdin_of_assignment hr) step

theorem inputs_of_early (hr : ReachableWhen (clusterSystem env config) C s)
    (hearly : ((s.client c).jobs j).pc.isEarly = true) :
    Worker.inputs ((s.client c).jobs j).controls = [] := by
  have hlive : ((s.client c).jobs j).pc.isOver = false := by
    rw [Worker.JobAt.isEarly, Bool.and_eq_true, Bool.not_eq_true'] at hearly
    exact hearly.1
  obtain ⟨lost, heq, -⟩ := (fed hr c j).fed hlive
  rw [stdin_of_early hr hearly, Client.waiting] at heq
  have hnil := heq.symm
  simp only [List.append_eq_nil_iff] at hnil
  exact hnil.1.2.1

end

/-! ### The order of the frames -/

def feeds : Pc → Option Uuid
  | .sendStdin j _ | .sendCommand j (.stdin _) | .sendCommandWorker j (.stdin _) _
  | .sendCommandSend j (.stdin _) _ _ => some j
  | _ => none

def takesFrame (s : Cluster) : Action → Option (Tid × Uuid)
  | .api (.start n (.sendStdin j _)) => some (.task n, j)
  | .api (.run t (.incoming (some (.binary _)) _)) =>
    match (s.api.task t).pc with
    | .websocketSelect socket => some (t, socket.session)
    | _ => none
  | _ => none

/-- The frames of a job are handled one at a time. -/
def framesInTurn (s : Cluster) (a : Action) : Prop :=
  ∀ t j, s.takesFrame a = some (t, j) → ∀ u, feeds (s.api.task u).pc ≠ some j

/-- The command that `send_stdin` enqueues in this step: its job, the connection and the frame. -/
def enqueues (s : Cluster) : Action → Option (Uuid × Uuid × Bytes)
  | .api (.run t _) =>
    match (s.api.task t).pc with
    | .sendCommandSend j (.stdin data) _ c =>
      match (s.api.shared.channel c).trySend (.command ⟨j, some (.stdin data)⟩) with
      | .ok _ => some (j, c, data)
      | .error _ => none
    | _ => none
  | _ => none

def enqueued (j : Uuid) (s : Cluster) (a : Action) : List Bytes :=
  match s.enqueues a with
  | some (i, _, data) => if i = j then [data] else []
  | none => []

/-- No operation is about to enqueue input for job `j` on connection `c`. -/
def Unfed (s : Cluster) (c j : Uuid) : Prop :=
  ∀ t data w, (s.api.task t).pc ≠ .sendCommandSend j (.stdin data) w c

structure InOrder (j : Uuid) (s : Cluster) (log : List Bytes) : Prop where
  feeder : ∀ t u, feeds (s.api.task t).pc = some j → feeds (s.api.task u).pc = some j → t = u
  started : log ≠ [] → s.Started j
  sent : ∀ c, j ∈ (s.api.shared.channel c).assignedJobs → stdinOf j (s.sent c) <+: log
  current : ∀ c, j ∈ (s.api.shared.channel c).assignedJobs →
    stdinOf j (s.sent c) = log ∨ s.api.shared.Gone c ∧ s.Unfed c j

section

variable {env : Executor.Env} {config : WorkerConfig} {C : Cluster → Action → Prop}
  {s s' : Cluster} {a : Action} {c j : Uuid} {log : List Bytes}

theorem feeds_of_intake {pc : Pc} (h : pc.intake = false) : feeds pc = none := by
  cases pc <;> first | rfl | cases h

theorem feeds_step (hs : s.step env config a = some s') (t : Tid)
    (hj : feeds (s'.api.task t).pc = some j) :
    feeds (s.api.task t).pc = some j ∨ s.takesFrame a = some (t, j) := by
  refine tasks_step (P := fun t pc => feeds pc = some j →
    feeds (s.api.task t).pc = some j ∨ s.takesFrame a = some (t, j)) hs ?_ ?_ ?_ ?_ t hj
  · exact fun _ hold => .inl hold
  · intro n op ha hop hpc
    subst ha
    cases op <;> cases hpc
    exact .inr rfl
  · intro _ r f hpc
    rw [feeds_of_intake (Executor.Frame.resume_intake r f)] at hpc
    cases hpc
  · intro t choice o ha _ ho hpc
    subst ha
    have hintake := Executor.exec_intake ho
    generalize hat : (s.api.task t).pc = pc at hintake
    cases hintake with
    | other accepted later =>
      rw [feeds_of_intake later] at hpc
      cases hpc
    | @frame socket data written limiter incoming =>
      subst incoming
      cases hpc
      exact .inr (by simp only [takesFrame, hat])
    | stdin => exact .inl hpc
    | @named i action w =>
      cases action with
      | stdin => exact .inl hpc
      | _ => cases hpc
    | @found i action w c =>
      cases action with
      | stdin => exact .inl hpc
      | _ => cases hpc
    | _ => cases hpc

theorem feeder_step (hc : s.framesInTurn a) (hs : s.step env config a = some s')
    (h : ∀ t u, feeds (s.api.task t).pc = some j → feeds (s.api.task u).pc = some j → t = u)
    (t u : Tid) (ht : feeds (s'.api.task t).pc = some j) (hu : feeds (s'.api.task u).pc = some j) :
    t = u := by
  rcases feeds_step hs t ht with ht | ht <;> rcases feeds_step hs u hu with hu | hu
  · exact h t u ht hu
  · exact absurd ht (hc u j hu t)
  · exact absurd hu (hc t j ht u)
  · cases ht.symm.trans hu
    rfl

/-- A connection that is gone gets no new sender of input. -/
theorem unfed_step (hs : s.step env config a = some s') (hgone : s.api.shared.Gone c)
    (h : s.Unfed c j) : s'.Unfed c j := by
  refine tasks_step (P := fun _ pc => ∀ data w, pc ≠ .sendCommandSend j (.stdin data) w c) hs h
    ?_ ?_ ?_
  · intro n op _ _ data w hpc
    cases op <;> cases hpc
  · intro _ r f data w hpc
    have hf := Executor.Frame.resume_intake r f
    rw [hpc] at hf
    cases hf
  · intro t choice o _ _ ho data w hpc
    have htraffic := Executor.exec_traffic ho
    generalize (s.api.task t).pc = pc at htraffic
    have haddresses : ∀ {pc : Pc}, pc.addresses = false → pc ≠ .sendCommandSend j (.stdin data) w c := by
      rintro _ hlater rfl
      cases hlater
    cases htraffic with
    | quiet _ _ _ _ later => exact haddresses later hpc
    | seen worker later => exact haddresses later hpc
    | found worker =>
      cases hpc
      exact hgone.2 w _ worker rfl
    | _ => cases hpc

theorem gone_step (hs : s.step env config a = some s') (h : s.api.shared.Gone c) :
    s'.api.shared.Gone c := by
  cases step_cases hs with
  | api hadmits hstep => exact Executor.State.step_gone h hstep
  | connect => exact h
  | transport hnext hstep => exact Executor.State.step_gone h hstep
  | client => exact h

theorem enqueues_cases {i : Uuid} {data : Bytes} (h : s.enqueues a = some (i, c, data)) :
    ∃ t choice w ch, a = .api (.run t choice) ∧
      (s.api.task t).pc = .sendCommandSend i (.stdin data) w c ∧
      (s.api.shared.channel c).trySend (.command ⟨i, some (.stdin data)⟩) = .ok ch := by
  unfold enqueues at h
  split at h
  · next t choice =>
    split at h
    · next w _ hpc =>
      split at h
      · next ch hsend =>
        cases h
        exact ⟨t, choice, w, ch, rfl, hpc, hsend⟩
      · cases h
    · cases h
  · cases h

theorem step_of_enqueues {i : Uuid} {data : Bytes} (hs : s.step env config a = some s')
    (h : s.enqueues a = some (i, c, data)) :
    (∀ c', s'.sent c' = if c' = c then s.sent c ++ [.command ⟨i, some (.stdin data)⟩] else s.sent c') ∧
      ∃ t w, (s.api.task t).pc = .sendCommandSend i (.stdin data) w c ∧
        feeds (s'.api.task t).pc = none := by
  obtain ⟨t, choice, w, ch, rfl, hpc, hsend⟩ := enqueues_cases h
  cases step_cases hs with
  | @api _ api hadmits hstep =>
    rcases Executor.State.run_cases hstep with ⟨r, f, frames, hdone, -⟩ | ⟨o, ho, rfl⟩
    · rw [hdone] at hpc
      cases hpc
    · rw [hpc] at ho
      simp only [Executor.exec, Executor.sendCommandSend, hsend, Executor.goto] at ho
      cases ho
      refine ⟨fun c' => ?_, t, w, hpc, by simp [feeds]⟩
      simp only [sent, Executor.Shared.setChannel]
      by_cases hc : c' = c
      · subst hc
        rw [Function.update_self, if_pos rfl, (Executor.Channel.trySend_ok hsend).1]
      · rw [Function.update_of_ne hc, if_neg hc]

theorem stdin_of_not_enqueues (hp : Piped s) (hs : s.step env config a = some s')
    (h : ∀ data, s.enqueues a ≠ some (j, c, data)) : stdinOf j (s'.sent c) = stdinOf j (s.sent c) := by
  have hapi : ∀ {b api}, s.api.step env b = some api →
      (∀ t choice, b = .run t choice → a = .api b) →
        stdinOf j (api.shared.channel c).sent = stdinOf j (s.sent c) := by
    intro b api hstep hb
    have hchannel := Executor.State.step_channel hstep c
    generalize api.shared.channel c = ch at hchannel
    cases hchannel with
    | same => rfl
    | @sent t choice m ch run sends sent =>
      have hnone : stdinFor j m = none := by
        cases sends with
        | assignment => rfl
        | @command i action w at_ =>
          refine Option.eq_none_iff_forall_ne_some.2 fun data hdata => h data ?_
          obtain ⟨rfl, rfl⟩ := Worker.stdinFor_eq_some hdata
          rw [hb t choice run, run]
          simp only [enqueues, at_, sent]
      rw [(Executor.Channel.trySend_ok sent).1, Worker.stdinOf_append, hnone]
      exact List.append_nil _
    | opened run fresh => rw [show s.sent c = [] from (hp.unopened c fresh).2]
    | taken take taken =>
      obtain ⟨rfl, -⟩ := Executor.Channel.take_some taken
      rfl
    | closed => rfl
  cases step_cases hs with
  | connect => rfl
  | client => rfl
  | transport hnext hstep => exact hapi hstep nofun
  | api hadmits hstep => exact hapi hstep fun _ _ _ => rfl

theorem assignedJobs_mono (hr : ReachableWhen (clusterSystem env config) C s)
    (hs : s.step env config a = some s') (hj : j ∈ (s.api.shared.channel c).assignedJobs) :
    j ∈ (s'.api.shared.channel c).assignedJobs := by
  cases step_cases hs with
  | connect => exact hj
  | client => exact hj
  | transport hnext hstep => exact Executor.assignedJobs_step (reachable_api hr) hj hstep
  | api hadmits hstep => exact Executor.assignedJobs_step (reachable_api hr) hj hstep

theorem not_started_of_unassigned (hr : ReachableWhen (clusterSystem env config) C s)
    (hr' : ReachableWhen (clusterSystem env config) C s') (hs : s.step env config a = some s')
    (hj : j ∉ (s.api.shared.channel c).assignedJobs)
    (hj' : j ∈ (s'.api.shared.channel c).assignedJobs) : ¬ s.Started j := by
  intro hstarted
  obtain ⟨c', -, hreceived⟩ := hstarted.received hr
  have hmem := mem_sent_of_received (piped hr) hreceived
  obtain rfl : c = c' := (assigned_once hr' c).2 c' j hj' (assignedJobs_mono hr hs hmem)
  exact hj hmem

theorem InOrder.keep (h : InOrder j s log) (hr : ReachableWhen (clusterSystem env config) framesInTurn s)
    (hc : s.framesInTurn a) (hs : s.step env config a = some s')
    (hquiet : ∀ c data, s.enqueues a ≠ some (j, c, data)) : InOrder j s' log := by
  have hstdin : ∀ c, stdinOf j (s'.sent c) = stdinOf j (s.sent c) :=
    fun c => stdin_of_not_enqueues (piped hr) hs (hquiet c)
  have hnew : ∀ c, j ∉ (s.api.shared.channel c).assignedJobs →
      j ∈ (s'.api.shared.channel c).assignedJobs → log = [] ∧ stdinOf j (s.sent c) = [] := by
    intro c hj hj'
    have hnot := not_started_of_unassigned hr (.step hr hc hs) hs hj hj'
    exact ⟨not_not.1 fun hlog => hnot (h.started hlog),
      not_not.1 fun hsent => hnot ((causal hr).sent c j hsent)⟩
  refine ⟨feeder_step hc hs h.feeder, fun hlog => (h.started hlog).step hr hs, fun c hj' => ?_,
    fun c hj' => ?_⟩
  · rw [hstdin]
    by_cases hj : j ∈ (s.api.shared.channel c).assignedJobs
    · exact h.sent c hj
    · rw [(hnew c hj hj').2]
      exact List.nil_prefix
  · rw [hstdin]
    by_cases hj : j ∈ (s.api.shared.channel c).assignedJobs
    · exact (h.current c hj).imp_right fun hgone =>
        ⟨gone_step hs hgone.1, unfed_step hs hgone.1 hgone.2⟩
    · obtain ⟨hlog, hsent⟩ := hnew c hj hj'
      exact .inl (hsent.trans hlog.symm)

theorem InOrder.enqueue {data : Bytes} (h : InOrder j s log)
    (hr : ReachableWhen (clusterSystem env config) framesInTurn s)
    (hc : s.framesInTurn a) (hs : s.step env config a = some s')
    (henqueues : s.enqueues a = some (j, c, data)) : InOrder j s' (log ++ [data]) := by
  obtain ⟨hsent, t, w, hpc, hdone⟩ := step_of_enqueues hs henqueues
  obtain ⟨c₀, hc₀, hroute⟩ := (Executor.bound (reachable_api hr)).found t j _ w c hpc
  have hfeeds : feeds (s.api.task t).pc = some j := by
    rw [hpc]
    rfl
  have hassigned : ∀ c', j ∈ (s'.api.shared.channel c').assignedJobs → c' = c₀ := fun c' hj' =>
    (assigned_once (.step hr hc hs) c').2 c₀ j hj' (assignedJobs_mono hr hs hc₀)
  have hnew : stdinOf j (s'.sent c₀) = stdinOf j (s.sent c₀) ++ if c₀ = c then [data] else [] := by
    rw [hsent]
    by_cases hcc : c₀ = c
    · rw [if_pos hcc, if_pos hcc, Worker.stdinOf_append, hcc, stdinFor, if_pos rfl]
      rfl
    · rw [if_neg hcc, if_neg hcc, List.append_nil]
  -- frames are handled in turn, so no other operation has input for the job
  have hunfed : ∀ c', s'.Unfed c' j := by
    intro c' u data' w' hu
    have hu : feeds (s'.api.task u).pc = some j := by
      rw [hu]
      rfl
    rcases feeds_step hs u hu with hold | htakes
    · rw [h.feeder u t hold hfeeds, hdone] at hu
      cases hu
    · exact hc u j htakes t hfeeds
  have hlast : c₀ = c → stdinOf j (s'.sent c₀) = log ++ [data] := by
    rintro rfl
    rcases h.current c₀ hc₀ with heq | ⟨-, hnone⟩
    · rw [hnew, if_pos rfl, heq]
    · exact absurd hpc (hnone t data w)
  refine ⟨feeder_step hc hs h.feeder,
    fun _ => Started.step hr hs ((causal hr).pc t j (by rw [hpc]; rfl)), fun c' hj' => ?_,
    fun c' hj' => ?_⟩
  all_goals obtain rfl := hassigned c' hj'
  all_goals by_cases hcc : c' = c
  · rw [hlast hcc]
  · rw [hnew, if_neg hcc, List.append_nil]
    exact (h.sent c' hc₀).trans (List.prefix_append _ _)
  · exact .inl (hlast hcc)
  · -- The frame went to a connection on which the job was never assigned.
    exact .inr ⟨gone_step hs (hroute.resolve_left (Ne.symm hcc)), hunfed c'⟩

theorem enqueued_cases (j : Uuid) (s : Cluster) (a : Action) :
    (enqueued j s a = [] ∧ ∀ c data, s.enqueues a ≠ some (j, c, data)) ∨
      ∃ c data, s.enqueues a = some (j, c, data) ∧ enqueued j s a = [data] := by
  unfold enqueued
  cases h : s.enqueues a with
  | none => exact .inl ⟨rfl, nofun⟩
  | some x =>
    obtain ⟨i, c, data⟩ := x
    by_cases hi : i = j
    · subst hi
      exact .inr ⟨c, data, rfl, if_pos rfl⟩
    · refine .inl ⟨if_neg hi, fun c' data' heq => hi ?_⟩
      cases heq
      rfl

theorem inOrder (h : RecordedWhen (clusterSystem env config) framesInTurn (enqueued j) s log) :
    InOrder j s log := by
  refine h.invariant ⟨fun t u ht => ?_, fun hlog => absurd rfl hlog, fun _ hj => ?_, fun _ hj => ?_⟩
    fun {s s' a log} hr hi hc hs => ?_
  · cases t <;> cases ht
  · cases hj
  · cases hj
  · rcases enqueued_cases j s a with ⟨hnil, hquiet⟩ | ⟨c, data, henqueues, hone⟩
    · rw [hnil, List.append_nil]
      exact hi.keep hr hc hs hquiet
    · rw [hone]
      exact hi.enqueue hr hc hs henqueues

/-- The blocks that the writer of a job has been handed are the first frames that were enqueued
for the job. -/
theorem blocks_in_order
    (h : RecordedWhen (clusterSystem env config) framesInTurn (enqueued j) s log) (c : Uuid) :
    ((s.client c).jobs j).writer.blocks <+: log := by
  have hr := h.reachable
  by_cases hj : j ∈ (s.api.shared.channel c).assignedJobs
  · exact ((fed hr c j).handed.trans (received_stdin (piped hr))).trans ((inOrder h).sent c hj)
  · have habsent := (sound hr c).absent j fun hmem => hj (mem_sent_of_received (piped hr) hmem)
    rw [habsent]
    exact List.nil_prefix

/-- The program gets the frames that were enqueued for its job in order and without a gap, and
`run_compile_process` finds no input that it could throw away. -/
theorem accepted_input_is_delivered_in_order
    (h : RecordedWhen (clusterSystem env config) framesInTurn (enqueued j) s log) (c : Uuid) :
    ((s.client c).jobs j).writer.blocks.flatten <+: log.flatten ∧
      ∀ link loop, ((s.client c).jobs j).pc = .compile link loop →
        ∀ data, .input data ∉ ((s.client c).jobs j).controls := by
  refine ⟨(blocks_in_order h c).flatten, fun link loop hpc data hmem => ?_⟩
  have hnil := inputs_of_early h.reachable (c := c) (j := j) (by rw [hpc]; rfl)
  have hdata : data ∈ Worker.inputs ((s.client c).jobs j).controls :=
    List.mem_filterMap.2 ⟨.input data, hmem, rfl⟩
  rw [hnil] at hdata
  cases hdata

/-! ### One browser -/

def framesFrom (t : Tid) (s : Cluster) (a : Action) : Bool :=
  match s.takesFrame a with
  | some (u, _) => u = t
  | none => true

theorem framesFrom_iff {t u : Tid} (h : s.framesFrom t a = true)
    (htakes : s.takesFrame a = some (u, j)) : u = t := by
  simpa only [framesFrom, htakes, decide_eq_true_eq] using h

theorem not_feeds_of_takesFrame {t : Tid} (hs : s.step env config a = some s')
    (h : s.takesFrame a = some (t, j)) : feeds (s.api.task t).pc = none := by
  unfold takesFrame at h
  split at h
  · cases h
    cases step_cases hs with
    | api hadmits hstep =>
      simp only [Executor.State.step, Executor.State.start] at hstep
      split at hstep
      · next vacant =>
        rw [vacant]
        rfl
      · cases hstep
  · split at h
    · next hpc =>
      cases h
      rw [hpc]
      rfl
    · cases h
  · cases h

theorem framesInTurn_of_framesFrom {t : Tid} (hs : s.step env config a = some s')
    (hr : ReachableWhen (clusterSystem env config) (fun s a => s.framesFrom t a = true) s)
    (hc : s.framesFrom t a = true) : s.framesInTurn a := by
  have hsingle : ∀ u j, feeds (s.api.task u).pc = some j → u = t :=
    hr.invariant (I := fun s => ∀ u j, feeds (s.api.task u).pc = some j → u = t)
      (fun u j hu => by cases u <;> cases hu) fun _ hi hc hs u j hu => by
        rcases feeds_step hs u hu with hold | htakes
        · exact hi u j hold
        · exact framesFrom_iff hc htakes
  intro u j htakes v hv
  have hnone := not_feeds_of_takesFrame hs htakes
  rw [framesFrom_iff hc htakes, ← hsingle v j hv, hv] at hnone
  cases hnone

end

def Schedule.runningJob : List Action :=
  Schedule.job 100 7 [.workspace none, .send .sent, .remaining false, .spawn none,
    .exitCode (.ok (some (some 0))), .drained, .remaining false, .spawn none,
    .exitCode (.ok (some (some 0))), .drained, .send .sent, .spawn none] ++
  Schedule.hear 0 (.event ⟨"w", .canonical 7, some (.phase JobPhase.compiling.code)⟩) 5 ++
  Schedule.hear 0 (.event ⟨"w", .canonical 7, some (.phase JobPhase.running.code)⟩) 5

def Schedule.frame (data : Bytes) : List Action :=
  (.run (.task 2) (.incoming (some (.binary data)) true) :: Executor.Schedule.go 2 5).map .api ++
    [.transport 100, .client 100 .receive, .client 100 .deliver] ++
    Schedule.job 100 7 [.control none]

theorem two_frames_are_delivered_in_order :
    ∃ s log, RecordedWhen (clusterSystem .forTest .forTest) framesInTurn (enqueued 7) s log ∧
      ((s.client 100).jobs 7).writer.blocks = [[104], [105, 10]] ∧
      ((s.client 100).jobs 7).writer.blocks.flatten <+: log.flatten := by
  obtain ⟨s, log, hs, hp⟩ := Transition.recordedWhen_of_execute
    (f := Cluster.step .forTest .forTest) (i := .new) (c := framesFrom (.task 2)) (enqueued 7)
    (Schedule.connect 0 "w" 100 ++
      (Executor.Schedule.create 1 7 "v" "i" ++ Executor.Schedule.connect 2 7).map .api ++
      Schedule.assign "w" 100 ++ [.client 100 .receive] ++ Schedule.runningJob ++
      Schedule.frame [104] ++ Schedule.frame [105, 10])
    (p := fun s _ => ((s.client 100).jobs 7).writer.blocks = [[104], [105, 10]])
    (by decide +kernel)
  have hs := hs.imply fun _ _ _ hr hc hstep => framesInTurn_of_framesFrom hstep hr hc
  exact ⟨s, log, hs, of_decide_eq_true hp, (accepted_input_is_delivered_in_order hs 100).1⟩

end SmartC.Cluster
