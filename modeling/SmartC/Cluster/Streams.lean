import SmartC.Cluster.Model
import SmartC.Worker.Slot

/-!
# The two streams of a connection

What the API has sent on a connection is what the worker's loop has received
followed by what is `pending`: in the channel, in the stream or before the
loop. `StreamStep` says once what a step of the composed system does to one
connection. A job is assigned at most once, so an event that reaches the API
was enqueued by the job it names.
-/

namespace SmartC.Cluster

open Executor (Tid Sends ChannelStep)
open Function (update)
open Transition (ReachableWhen)
open Worker (Client ClientAction WorkerConfig)

def sent (s : Cluster) (c : Uuid) : List ApiMessage := (s.api.shared.channel c).sent

/-- What was sent on connection `c` and has not been received by the worker's loop. -/
def pending (s : Cluster) (c : Uuid) : List ApiMessage :=
  (s.client c).inbound ++ (s.sent c).drop (s.api.shared.channel c).taken

def pendingJobs (s : Cluster) (c : Uuid) : List Uuid := (s.pending c).filterMap ApiMessage.assigned

structure Piped (s : Cluster) : Prop where
  stream : ∀ c, (s.client c).received ++ s.pending c = s.sent c
  bounded : ∀ c, (s.api.shared.channel c).taken ≤ (s.sent c).length
  unopened : s.api.shared.Unopened

/-! ### One connection -/

/-- What a step does to the messages sent on connection `c`, to those that are pending there
and to the worker. -/
inductive StreamStep (env : Executor.Env) (config : WorkerConfig) (s : Cluster) (a : Action)
    (c : Uuid) : List ApiMessage → List ApiMessage → Client → Prop
  | same : StreamStep env config s a c (s.sent c) (s.pending c) (s.client c)
  | sent {t choice m} (run : a = .api (.run t choice)) (sends : Sends env s.api t choice c m) :
      StreamStep env config s a c (s.sent c ++ [m]) (s.pending c ++ [m]) (s.client c)
  | heard {t w m} (run : a = .api (.run t (.inbound (some m))))
      (at_ : (s.api.task t).pc = .processWorkerStream w c)
      (next : (s.client c).emitted[(s.client c).delivered]? = some m) :
      StreamStep env config s a c (s.sent c) (s.pending c)
        { s.client c with delivered := (s.client c).delivered + 1 }
  | connected {t w} (at_ : (s.api.task t).pc = .processWorkerStream w c)
      (fresh : (s.client c).loop = .unconnected) :
      StreamStep env config s a c (s.sent c) (s.pending c)
        { s.client c with workerId := w, loop := .select }
  | transported {m} : StreamStep env config s a c (s.sent c) (s.pending c)
      { s.client c with inbound := (s.client c).inbound ++ [m] }
  | stepped {b k} (client : a = .client c b) (step : Client.StepCase config (s.client c) b k) :
      StreamStep env config s a c (s.sent c)
        (k.inbound ++ (s.sent c).drop (s.api.shared.channel c).taken) k

section

variable {env : Executor.Env} {config : WorkerConfig} {s s' : Cluster} {a : Action}

theorem Piped.new : Piped .new := ⟨fun _ => rfl, fun _ => Nat.le_refl _, fun _ _ => ⟨rfl, rfl⟩⟩

theorem received_inbound {k k' : Client} {b : ClientAction}
    (hs : Client.StepCase config k b k') :
    k'.received ++ k'.inbound = k.received ++ k.inbound := by
  cases hs with
  | received select next turn handles =>
    cases handles with
    | refused =>
      obtain ⟨hreceived, hinbound, -⟩ := Client.fail_frame (k := _) _
      rw [hreceived, hinbound, next, List.append_assoc, List.singleton_append]
    | _ => simp [Client.setJob, next]
  | undelivered =>
    obtain ⟨hreceived, hinbound, -⟩ := Client.fail_frame (k := k) .jobControlClosed
    rw [hreceived, hinbound]
  | _ => rfl

theorem stream_shared {t : Tid} {w : String} {c : Uuid} {choice : Executor.Choice}
    {api api' : Executor.State} (hpc : (api.task t).pc = .processWorkerStream w c)
    (h : api.step env (.run t choice) = some api') : api'.shared = api.shared := by
  rcases Executor.State.run_cases h with ⟨r, f, frames, hdone, -⟩ | ⟨o, ho, rfl⟩
  · rw [hdone] at hpc
    cases hpc
  · rw [hpc] at ho
    simp only [Executor.exec, Executor.processWorkerStream, Executor.goto, Executor.call] at ho
    repeat' split at ho
    all_goals cases ho
    all_goals rfl

theorem StreamStep.api {b : Executor.Action} {api : Executor.State} (hp : Piped s)
    (hadmits : s.admits b = true) (hstep : s.api.step env b = some api) (c : Uuid) :
    StreamStep env config s (.api b) c (Cluster.sent ⟨api, s.delivered b⟩ c)
      (pending ⟨api, s.delivered b⟩ c) (s.delivered b c) := by
  have hchannel := Executor.State.step_channel hstep c
  rcases delivered_cases hadmits with ⟨-, hclient⟩ | ⟨t, w, c', m, rfl, hpc, hnext, hclient⟩
  · simp only [pending, Cluster.sent, hclient]
    generalize api.shared.channel c = ch at hchannel
    cases hchannel with
    | same => exact .same
    | sent run sends sent =>
      have hbounded : (s.api.shared.channel c).taken ≤ (s.api.shared.channel c).sent.length :=
        hp.bounded c
      rw [(Executor.Channel.trySend_ok sent).1]
      dsimp only
      rw [List.drop_append_of_le_length hbounded, ← List.append_assoc]
      exact .sent (congrArg Action.api run) sends
    | opened run fresh =>
      have hsent : s.sent c = [] := (hp.unopened c fresh).2
      have hsame : StreamStep env config s (.api b) c (s.sent c) (s.pending c) (s.client c) := .same
      rwa [pending, hsent, List.drop_nil] at hsame
    | taken take =>
      subst take
      cases hadmits
    | closed => exact .same
  · -- A handler that takes a message from its worker sends nothing.
    have hshared := stream_shared hpc hstep
    simp only [pending, Cluster.sent, hshared, hclient]
    by_cases hc : c = c'
    · subst hc
      simp only [Function.update_self]
      exact .heard rfl hpc hnext
    · simp only [Function.update_of_ne hc]
      exact .same

theorem step_stream (hp : Piped s) (h : s.step env config a = some s') (c : Uuid) :
    StreamStep env config s a c (s'.sent c) (s'.pending c) (s'.client c) := by
  cases step_cases h with
  | api hadmits hstep => exact .api hp hadmits hstep c
  | @connect t w c' hpc hfresh =>
    by_cases hc : c = c'
    · subst hc
      simp only [pending, sent, setClient, Function.update_self]
      exact .connected hpc hfresh
    · simp only [pending, sent, setClient, Function.update_of_ne hc]
      exact .same
  | @transport c' m api hnext hstep =>
    obtain ⟨ch, htake, rfl⟩ := Option.map_eq_some_iff.1 hstep
    obtain ⟨rfl, hlt⟩ := Executor.Channel.take_some htake
    by_cases hc : c = c'
    · subst hc
      have hpending : s.pending c = (s.client c).inbound ++ m ::
          (s.api.shared.channel c).sent.drop ((s.api.shared.channel c).taken + 1) := by
        rw [List.getElem?_eq_getElem hlt] at hnext
        rw [pending, sent, List.drop_eq_getElem_cons hlt, Option.some.inj hnext]
      simp only [pending, sent, setClient, Executor.Shared.setChannel, Function.update_self,
        List.append_assoc, List.singleton_append, ← hpending]
      exact .transported
    · simp only [pending, sent, setClient, Executor.Shared.setChannel, Function.update_of_ne hc]
      exact .same
  | @client c' b k hstep =>
    by_cases hc : c = c'
    · subst hc
      simp only [pending, sent, setClient, Function.update_self]
      exact .stepped rfl (Client.step_cases hstep)
    · simp only [pending, sent, setClient, Function.update_of_ne hc]
      exact .same

theorem StreamStep.stream {sent pending : List ApiMessage} {k : Client} {c : Uuid} (hp : Piped s)
    (h : StreamStep env config s a c sent pending k) : k.received ++ pending = sent := by
  have hold := hp.stream c
  cases h with
  | sent => rw [← List.append_assoc, hold]
  | stepped client step =>
    rw [← List.append_assoc, received_inbound step, List.append_assoc]
    exact hold
  | _ => exact hold

theorem Piped.step_bounded (hp : Piped s) (h : s.step env config a = some s') (c : Uuid) :
    (s'.api.shared.channel c).taken ≤ (s'.sent c).length := by
  have hold := hp.bounded c
  have hapi : ∀ {b api}, s.api.step env b = some api →
      (api.shared.channel c).taken ≤ (api.shared.channel c).sent.length := by
    intro b api hstep
    have hchannel := Executor.State.step_channel hstep c
    generalize api.shared.channel c = ch at hchannel
    cases hchannel with
    | same => exact hold
    | sent run sends sent =>
      rw [(Executor.Channel.trySend_ok sent).1, List.length_append]
      exact Nat.le_add_right_of_le hold
    | opened => exact Nat.le_refl 0
    | taken take taken =>
      obtain ⟨rfl, hlt⟩ := Executor.Channel.take_some taken
      exact hlt
    | closed => exact hold
  cases step_cases h with
  | api hadmits hstep => exact hapi hstep
  | connect => exact hold
  | transport hnext hstep => exact hapi hstep
  | client => exact hold

theorem Piped.step (hp : Piped s) (h : s.step env config a = some s') : Piped s' where
  stream c := (step_stream hp h c).stream hp
  bounded := hp.step_bounded h
  unopened := by
    cases step_cases h with
    | api hadmits hstep => exact Executor.State.step_unopened hp.unopened hstep
    | connect => exact hp.unopened
    | transport hnext hstep => exact Executor.State.step_unopened hp.unopened hstep
    | client => exact hp.unopened

end

/-! ### Reachable states -/

section

variable {env : Executor.Env} {config : WorkerConfig} {C : Cluster → Action → Prop}
  {s s' : Cluster} {a : Action}

theorem piped (h : ReachableWhen (clusterSystem env config) C s) : Piped s :=
  h.invariant .new fun _ hp _ hstep => hp.step hstep

theorem mem_sent_of_received {c j : Uuid} (h : Piped s)
    (hj : j ∈ (s.client c).assignedJobs) :
    j ∈ (s.api.shared.channel c).assignedJobs := by
  have hstream : (s.client c).received ++ s.pending c = (s.api.shared.channel c).sent := h.stream c
  rw [Executor.Channel.assignedJobs, ← hstream, List.filterMap_append]
  exact List.mem_append_left _ hj

/-- No job is assigned twice, on one connection or on two. -/
theorem assigned_once (h : ReachableWhen (clusterSystem env config) C s) (c : Uuid) :
    ((s.sent c).filterMap ApiMessage.assigned).Nodup ∧
      ∀ c' j, j ∈ (s.sent c).filterMap ApiMessage.assigned →
        j ∈ (s.sent c').filterMap ApiMessage.assigned → c = c' := by
  obtain ⟨place, hplaced⟩ := Executor.placed (Executor.Reachable.overview (reachable_api h))
  refine ⟨List.nodup_iff_count_le_one.2 fun j => ?_, fun c' j hj hj' => ?_⟩
  · refine le_of_eq_of_le (hplaced.assigned c j) ?_
    split <;> simp
  · have hplace : place j = .assigned c := hplaced.mem_assigned.1 hj
    have hplace' : place j = .assigned c' := hplaced.mem_assigned.1 hj'
    exact Executor.Place.assigned.inj (hplace.symm.trans hplace')

theorem assignsOnce (h : ReachableWhen (clusterSystem env config) C s) (c : Uuid) :
    (s.client c).AssignsOnce := by
  intro a rest hnext hmem
  have hnodup := (assigned_once h c).1
  rw [← (piped h).stream c, pending, hnext, List.filterMap_append] at hnodup
  refine (List.nodup_append.1 hnodup).2.2 _ hmem a.jobId ?_ rfl
  exact List.mem_filterMap.2 ⟨.assignment a, List.mem_append_left _ List.mem_cons_self, rfl⟩

/-- What a step of the composed system does to one job of a connection. -/
theorem StreamStep.job {sent pending : List ApiMessage} {k : Client} {c : Uuid}
    (h : StreamStep env config s a c sent pending k) (j : Uuid) :
    Client.JobStep config (s.client c) (fun choice => a = .client c (.job j (.run choice))) j
      (k.jobs j) := by
  cases h with
  | stepped client step =>
    subst client
    exact (Client.step_job step j).imp fun _ => congrArg _
  | _ => exact .same rfl rfl

theorem StreamStep.sound {sent pending : List ApiMessage} {k : Client} {c : Uuid}
    (h : StreamStep env config s a c sent pending k) (hs : (s.client c).Sound) : k.Sound := by
  cases h with
  | same => exact hs
  | sent => exact hs
  | heard => exact ⟨hs.absent, hs.jobId, hs.active, hs.running, hs.returned, hs.delivers,
      hs.unconnected, hs.slot⟩
  | connected at_ fresh =>
    exact ⟨hs.absent, hs.jobId, hs.active, hs.running, hs.returned, nofun, nofun,
      fun _ => hs.slot (by rw [Client.ended, fresh])⟩
  | transported => exact ⟨hs.absent, hs.jobId, hs.active, hs.running, hs.returned, hs.delivers,
      hs.unconnected, hs.slot⟩
  | stepped client step => exact hs.step step

theorem sound (h : ReachableWhen (clusterSystem env config) C s) (c : Uuid) :
    (s.client c).Sound :=
  h.invariant (I := fun s => ∀ c, (s.client c).Sound) (fun _ => .new)
    (fun hr hs _ hstep c => (step_stream (piped hr) hstep c).sound (hs c)) c

theorem StreamStep.honest {sent pending : List ApiMessage} {k : Client} {c : Uuid}
    (h : StreamStep env config s a c sent pending k) (hs : (s.client c).Sound)
    (honce : (s.client c).AssignsOnce) (hh : (s.client c).Honest) : k.Honest := by
  cases h with
  | same => exact hh
  | sent => exact hh
  | heard => exact ⟨hh.event⟩
  | connected at_ fresh =>
    refine ⟨fun e he => ?_⟩
    rw [show (s.client c).emitted = [] from (hs.unconnected fresh).2] at he
    cases he
  | transported => exact ⟨hh.event⟩
  | stepped client step => exact hh.step hs honce step

theorem honest (h : ReachableWhen (clusterSystem env config) C s) (c : Uuid) :
    (s.client c).Honest :=
  h.invariant (I := fun s => ∀ c, (s.client c).Honest) (fun _ => .new)
    (fun hr hh _ hstep c =>
      (step_stream (piped hr) hstep c).honest (sound hr c) (assignsOnce hr c) (hh c)) c

/-! ### What the API has taken in -/

theorem StreamStep.emitted {sent pending : List ApiMessage} {k : Client} {c : Uuid}
    (h : StreamStep env config s a c sent pending k) : (s.client c).emitted <+: k.emitted := by
  cases h with
  | stepped client step => exact Client.emitted_grows step
  | _ => exact List.prefix_refl _

theorem delivered_kept {k k' : Client} {b : ClientAction} (h : Client.StepCase config k b k') :
    k'.delivered = k.delivered := by
  cases h with
  | received select next turn handles =>
    cases handles with
    | refused => exact (Client.fail_frame _).2.2.2.2.2
    | _ => rfl
  | undelivered => exact (Client.fail_frame _).2.2.2.2.2
  | _ => rfl

theorem StreamStep.delivered_le {sent pending : List ApiMessage} {client : Client} {c : Uuid}
    (h : StreamStep env config s a c sent pending client) :
    (s.client c).delivered ≤ client.delivered := by
  cases h with
  | heard => exact Nat.le_succ _
  | stepped client step => exact (delivered_kept step).ge
  | _ => exact Nat.le_refl _

theorem take_prefix_take {α : Type} {xs ys : List α} {m n : Nat} (h : xs <+: ys) (hmn : m ≤ n) :
    xs.take m <+: ys.take n := by
  refine List.prefix_of_prefix_length_le ((xs.take_prefix m).trans h) (ys.take_prefix n) ?_
  rw [List.length_take, List.length_take]
  exact min_le_min hmn h.length_le

theorem emitted_of_inbound {t : Tid} {w : String} {c : Uuid} {m : WorkerMessage}
    (h : s.admits (.run t (.inbound (some m))) = true)
    (hpc : (s.api.task t).pc = .processWorkerStream w c) : m ∈ (s.client c).emitted := by
  simp only [admits, delivery, hpc, decide_eq_true_eq] at h
  exact List.mem_of_getElem? h

/-- The events that the API works on and those it has accepted come from their worker. -/
structure Heard (s : Cluster) : Prop where
  handles : ∀ t c e, (s.api.task t).pc = .handleWorkerEvent c e → .event e ∈ (s.client c).emitted
  accepted : ∀ c e, e ∈ s.api.shared.accepted c → .event e ∈ (s.client c).emitted

theorem not_handles {pc : Executor.Pc} (h : pc.intake = false) (c : Uuid) (e : JobEvent) :
    pc ≠ .handleWorkerEvent c e := by
  rintro rfl
  cases h

theorem accepted_step {c : Uuid} {e : JobEvent} (hs : s.step env config a = some s')
    (he : e ∈ s'.api.shared.accepted c) :
    e ∈ s.api.shared.accepted c ∨ ∃ t, (s.api.task t).pc = .handleWorkerEvent c e := by
  cases step_cases hs with
  | connect => exact .inl he
  | client => exact .inl he
  | transport hnext hstep =>
    obtain ⟨ch, -, rfl⟩ := Option.map_eq_some_iff.1 hstep
    exact .inl he
  | api hadmits hstep =>
    cases Executor.State.step_cases hstep with
    | start => exact .inl he
    | resume => exact .inl he
    | outside ho => cases ho <;> exact .inl he
    | @exec t choice o ho =>
      have hintake := Executor.exec_intake ho
      generalize hpc : (s.api.task t).pc = pc at hintake
      cases hintake with
      | other accepted later => exact .inl (accepted ▸ he)
      | @accepted c' e' j hd job worker connection current =>
        by_cases hc : c = c'
        · subst hc
          simp only [Function.update_self] at he
          rcases List.mem_append.1 he with he | he
          · exact .inl he
          · exact .inr ⟨t, by rw [hpc, List.mem_singleton.1 he]⟩
        · simp only [Function.update_of_ne hc] at he
          exact .inl he
      | _ => exact .inl he

theorem Heard.step (h : Heard s) (hp : Piped s) (hs : s.step env config a = some s') :
    Heard s' := by
  have hemitted : ∀ c, (s.client c).emitted <+: (s'.client c).emitted :=
    fun c => (step_stream hp hs c).emitted
  constructor
  · refine tasks_step (P := fun _ pc => ∀ c e, pc = .handleWorkerEvent c e →
      .event e ∈ (s'.client c).emitted) hs ?_ ?_ ?_ ?_
    · exact fun t c e ht => (hemitted c).subset (h.handles t c e ht)
    · intro n op _ hop c e hpc
      cases op <;> first | exact absurd hop Bool.false_ne_true | cases hpc
    · exact fun _ r f c e hpc => absurd hpc (not_handles (Executor.Frame.resume_intake r f) c e)
    · intro t choice o _ hadmits ho c e hpc
      have hintake := Executor.exec_intake ho
      generalize hat : (s.api.task t).pc = pc at hintake
      cases hintake with
      | other accepted later => exact absurd hpc (not_handles later c e)
      | event inbound sender =>
        subst inbound
        cases hpc
        exact (hemitted c).subset (emitted_of_inbound hadmits hat)
      | _ => cases hpc
  · intro c e he
    refine (hemitted c).subset ?_
    rcases accepted_step hs he with he | ⟨t, ht⟩
    · exact h.accepted c e he
    · exact h.handles t c e ht

theorem Heard.new : Heard .new where
  handles t c e ht := by
    cases t with
    | dispatcher => cases ht
    | task => cases ht
  accepted := nofun

theorem heard (h : ReachableWhen (clusterSystem env config) C s) : Heard s :=
  h.invariant .new fun hr hh _ hstep => hh.step (piped hr) hstep

end

end SmartC.Cluster
