import SmartC.Cluster.Streams
import SmartC.Executor.Handlers
import SmartC.Worker.Exits

/-!
# Heartbeats

A heartbeat names the job that its worker had when the message was built, and
`heartbeat` compares it with the job that the API has for the worker when the
message arrives. An assignment that is under way at the same time makes the two
differ. Without one the report still holds when it is checked (`Holds`): it
names the last job that was assigned on the connection, or the exits of all
jobs that were assigned there are ahead of it in the stream.
-/

namespace SmartC.Cluster

open Executor (Tid Exited)
open Function (update)
open Transition (ReachableWhen)
open Worker (Client ClientAction WorkerConfig)

def assignedOn (s : Cluster) (c : Uuid) : List Uuid := (s.sent c).filterMap ApiMessage.assigned

/-- A heartbeat with the report `reported` is under way on connection `c`: built, enqueued or
taken by the handler. The messages `ahead` were enqueued before it. -/
inductive UnderWay (s : Cluster) (c : Uuid) : Option JobIdText → List WorkerMessage → Prop
  | read {jobId} (live : (s.client c).ended = false) (read : (s.client c).heartbeat = some jobId) :
      UnderWay s c (jobId.map .canonical) (s.client c).emitted
  | sent {i w reported} (waits : (s.client c).delivered ≤ i)
      (at_ : (s.client c).emitted[i]? = some (.heartbeat w reported)) :
      UnderWay s c reported ((s.client c).emitted.take i)
  | taken {t w reported} (at_ : (s.api.task t).pc = .heartbeat w c reported) :
      UnderWay s c reported ((s.client c).emitted.take (s.client c).delivered)

/-- Exits are enqueued and the grace period is kept; a worker is unregistered by its handler
only, and a cancellation finishes its session as unassigned as it found it. -/
def keepsPace (s : Cluster) : Action → Bool
  | .api a => s.api.inGrace a && s.api.keepsWorkers a && s.api.cancelsUnassigned a
  | .client c a => (s.client c).enqueuesExit a
  | _ => true

/-- No job is assigned on a connection where a heartbeat is under way, and no heartbeat is built
where an assignment is. -/
def Apart (s : Cluster) : Action → Prop
  | .api (.run t (.candidate w)) =>
    match (s.api.task t).pc with
    | .dispatchWorkers _ => ∀ hd, s.api.shared.workers.lookup w = some hd →
      ∀ reported ahead, ¬ s.UnderWay hd.connectionId reported ahead
    | _ => True
  | .client c .readCurrentJob => s.pendingJobs c = []
  | _ => True

def KeepsApart (s : Cluster) (a : Action) : Prop := s.keepsPace a = true ∧ s.Apart a

/-- The report `reported` with the messages `ahead` of it, once `assigned` are the jobs of the
connection. -/
def Holds (assigned : List Uuid) (ahead : List WorkerMessage) : Option JobIdText → Prop
  | some r => ∃ j, r = .canonical j ∧ assigned.getLast? = some j
  | none => ∀ j ∈ assigned, ∃ e, .event e ∈ ahead ∧ e.exited = some j

theorem Holds.mono {assigned : List Uuid} {ahead ahead' : List WorkerMessage}
    {reported : Option JobIdText} (h : Holds assigned ahead reported) (hsub : ahead ⊆ ahead') :
    Holds assigned ahead' reported := by
  cases reported with
  | some r => exact h
  | none =>
    intro j hj
    obtain ⟨e, he, hexited⟩ := h j hj
    exact ⟨e, hsub he, hexited⟩

section

variable {env : Executor.Env} {config : WorkerConfig} {C : Cluster → Action → Prop}
  {s s' : Cluster} {a : Action} {c : Uuid} {r : Option JobIdText} {ahead : List WorkerMessage}

/-! ### What the worker has told -/

theorem StreamStep.reasoned {sent pending : List ApiMessage} {k : Client}
    (h : StreamStep env config s a c sent pending k) (hr : (s.client c).Reasoned) : k.Reasoned := by
  cases h with
  | stepped client step => exact hr.step step
  | _ => exact ⟨hr.pc, hr.sent⟩

theorem reasoned (h : ReachableWhen (clusterSystem env config) C s) (c : Uuid) :
    (s.client c).Reasoned :=
  h.invariant (I := fun s => ∀ c, (s.client c).Reasoned) (fun _ => ⟨fun _ => rfl, nofun⟩)
    (fun hr hi _ hstep c => (step_stream (piped hr) hstep c).reasoned (hi c)) c

theorem event_hasReason (h : ReachableWhen (clusterSystem env config) C s) {e : JobEvent}
    (he : .event e ∈ (s.client c).emitted) : e.payload.all Executor.hasExitReason = true := by
  obtain ⟨-, j, payload, -, hpayload, hsent⟩ := (honest h c).event e he
  rw [hpayload]
  exact (reasoned h c).sent j payload hsent

theorem event_parses (h : ReachableWhen (clusterSystem env config) C s) {e : JobEvent}
    (he : .event e ∈ (s.client c).emitted) : e.jobId.parse.isSome = true := by
  obtain ⟨-, j, -, hjob, -⟩ := (honest h c).event e he
  rw [hjob]
  rfl

theorem StreamStep.reported {sent pending : List ApiMessage} {k : Client}
    (h : StreamStep env config s a c sent pending k) (hsound : (s.client c).Sound)
    (hpace : s.keepsPace a = true) (hr : (s.client c).Reported) : k.Reported := by
  cases h with
  | connected at_ fresh =>
    exact ⟨hr.latest, fun _ => hr.exited (by rw [Client.ended, fresh])⟩
  | stepped client step =>
    subst client
    exact hr.step hsound hpace step
  | _ => exact ⟨hr.latest, hr.exited⟩

theorem reported (h : ReachableWhen (clusterSystem env config) (fun s a => s.keepsPace a = true) s)
    (c : Uuid) : (s.client c).Reported :=
  h.invariant (I := fun s => ∀ c, (s.client c).Reported)
    (fun _ => ⟨nofun, fun _ _ hj => by cases hj⟩)
    (fun hr hi hc hstep c => (step_stream (piped hr) hstep c).reported (sound hr c) hc (hi c)) c

/-! ### What the API has heard -/

theorem isProper_of_admits (h : ReachableWhen (clusterSystem env config) C s)
    {b : Executor.Action} (hb : s.admits b = true) : s.api.isProper b = true := by
  unfold Executor.State.isProper
  split
  · next op =>
    have hop : fromOutside op = true := hb
    cases op <;> first | rfl | cases hop
  · next t e =>
    split
    · next w c hpc => exact event_hasReason h (emitted_of_inbound hb hpc)
    · rfl
  · rfl

theorem handled (h : ReachableWhen (clusterSystem env config) (fun s a => s.keepsPace a = true) s) :
    ReachableWhen (Executor.system env) Executor.State.Handled s.api := by
  refine h.simulate Cluster.api rfl ?_
  intro s s' a hr hc hstep
  cases step_cases hstep with
  | connect => exact .inl rfl
  | client => exact .inl rfl
  | @transport c m api _ htaken => exact .inr ⟨.take c, ⟨rfl, rfl, rfl⟩, htaken⟩
  | api hadmits hapi =>
    simp only [keepsPace, Bool.and_eq_true] at hc
    exact .inr ⟨_, ⟨isProper_of_admits hr hadmits, hc.1.2, hc.2⟩, hapi⟩

def heardOn (s : Cluster) (c : Uuid) : List WorkerMessage :=
  (s.client c).emitted.take (s.client c).delivered

theorem StreamStep.delivered_le_length {sent pending : List ApiMessage} {k : Client}
    (h : StreamStep env config s a c sent pending k)
    (hle : (s.client c).delivered ≤ (s.client c).emitted.length) :
    k.delivered ≤ k.emitted.length := by
  cases h with
  | heard run at_ next => exact (List.getElem?_eq_some_iff.1 next).1
  | stepped client step =>
    rw [delivered_kept step]
    exact hle.trans (Client.emitted_grows step).length_le
  | _ => exact hle

theorem delivered_le_length (h : ReachableWhen (clusterSystem env config) C s) (c : Uuid) :
    (s.client c).delivered ≤ (s.client c).emitted.length :=
  h.invariant (I := fun s => ∀ c, (s.client c).delivered ≤ (s.client c).emitted.length)
    (fun _ => Nat.le_refl _)
    (fun hr hi _ hstep c => (step_stream (piped hr) hstep c).delivered_le_length (hi c)) c

theorem take_of_prefix {α : Type} {xs ys : List α} {n : Nat} (h : xs <+: ys) (hn : n ≤ xs.length) :
    ys.take n = xs.take n := by
  obtain ⟨zs, rfl⟩ := h
  exact List.take_append_of_le_length hn

theorem StreamStep.heardOn {sent pending : List ApiMessage} {k : Client}
    (h : StreamStep env config s a c sent pending k)
    (hle : (s.client c).delivered ≤ (s.client c).emitted.length) :
    k.emitted.take k.delivered = s.heardOn c ∨
      ∃ t w m, a = .api (.run t (.inbound (some m))) ∧
        (s.api.task t).pc = .processWorkerStream w c ∧
        k.emitted.take k.delivered = s.heardOn c ++ [m] := by
  cases h with
  | heard run at_ next =>
    refine .inr ⟨_, _, _, run, at_, ?_⟩
    dsimp only
    rw [List.take_add_one, next, Option.toList_some, Cluster.heardOn]
  | stepped client step =>
    left
    rw [delivered_kept step, take_of_prefix (Client.emitted_grows step) hle, Cluster.heardOn]
  | _ => exact .inl rfl

theorem connections_grow (hs : s.step env config a = some s') :
    s.api.shared.connections ⊆ s'.api.shared.connections := by
  have hapi : ∀ {b api}, s.api.step env b = some api →
      s.api.shared.connections ⊆ api.shared.connections := by
    intro b api hstep
    cases Executor.State.step_cases hstep with
    | start => exact Finset.Subset.refl _
    | resume => exact Finset.Subset.refl _
    | exec ho => exact Executor.exec_connections ho
    | outside ho => cases ho <;> exact Finset.Subset.refl _
  cases step_cases hs with
  | api _ hstep => exact hapi hstep
  | connect => exact Finset.Subset.refl _
  | transport _ hstep => exact hapi hstep
  | client => exact Finset.Subset.refl _

theorem serves_of_reading (h : Executor.Reachable env s.api) {t : Tid} {w : String}
    (hpc : (s.api.task t).pc = .processWorkerStream w c) :
    (s.api.task t).frames = [] ∧ (s.api.task t).Serves w c := by
  have hframes : (s.api.task t).frames = [] :=
    ((Executor.Reachable.orderly h).typed t).stream_frames (by rw [hpc]; rfl)
  generalize s.api.task t = task at hpc hframes
  obtain ⟨pc, frames⟩ := task
  cases hpc
  cases hframes
  exact ⟨rfl, rfl, rfl⟩

theorem mem_connections_of_serves
    (h : ReachableWhen (clusterSystem env config) (fun s a => s.keepsPace a = true) s) {t : Tid}
    {w : String} (hserves : (s.api.task t).Serves w c) : c ∈ s.api.shared.connections := by
  obtain ⟨hd, hw, rfl⟩ := (Executor.served (handled h)).registered t w c hserves.1
  exact (Executor.wired (Executor.Reachable.overview (reachable_api h))).known w hd.handle
    (Executor.ledger_lookup hw)

theorem unconnected_step {k k' : Client} {b : ClientAction} (hs : Client.StepCase config k b k')
    (h : k.loop = .unconnected) : k'.loop = .unconnected := by
  cases hs with
  | ran => exact h
  | wrote => exact h
  | finished => exact h
  | readCurrentJob => exact h
  | sentHeartbeat => exact h
  | delivered loop => cases h.symm.trans loop
  | undelivered loop => cases h.symm.trans loop
  | received select => cases h.symm.trans select
  | completed select => cases h.symm.trans select
  | completedOther select => cases h.symm.trans select
  | closedIdle select => cases h.symm.trans select
  | closed select => cases h.symm.trans select

theorem StreamStep.unconnected {sent pending : List ApiMessage} {k : Client}
    (h : StreamStep env config s a c sent pending k) (hloop : (s.client c).loop = .unconnected)
    (hreading : ∀ t w, (s.api.task t).pc ≠ .processWorkerStream w c) : k.loop = .unconnected := by
  cases h with
  | connected at_ => exact absurd at_ (hreading _ _)
  | stepped client step => exact unconnected_step step hloop
  | _ => exact hloop

theorem unconnected
    (h : ReachableWhen (clusterSystem env config) (fun s a => s.keepsPace a = true) s) (c : Uuid)
    (hc : c ∉ s.api.shared.connections) : (s.client c).loop = .unconnected := by
  refine h.invariant (I := fun s => ∀ c, c ∉ s.api.shared.connections →
    (s.client c).loop = .unconnected) (fun _ _ => rfl) (fun hr hi _ hstep c hc => ?_) c hc
  have hold := fun hmem => hc (connections_grow hstep hmem)
  refine (step_stream (piped hr) hstep c).unconnected (hi c hold) fun t w hpc => hold ?_
  exact mem_connections_of_serves hr (serves_of_reading (reachable_api hr) hpc).2

def Accounted (s : Cluster) : Prop :=
  ∀ t w c, (s.api.task t).Serves w c → ∀ e, .event e ∈ s.heardOn c → s.api.Has t c e

theorem emitted_of_heardOn {m : WorkerMessage} (hm : m ∈ s.heardOn c) :
    m ∈ (s.client c).emitted :=
  (List.take_prefix _ _).subset hm

theorem has_of_inbound {t : Tid} {w : String} {e : JobEvent} {api : Executor.State}
    (h : Executor.Reachable env s.api) (hpc : (s.api.task t).pc = .processWorkerStream w c)
    (hstep : s.api.step env (.run t (.inbound (some (.event e)))) = some api)
    (hquits : (api.task t).quits = false) : api.Has t c e := by
  have hframes := (serves_of_reading h hpc).1
  rcases Executor.State.run_cases hstep with ⟨r, f, frames, hdone, -⟩ | ⟨o, ho, rfl⟩
  · rw [hdone] at hpc
    cases hpc
  · rw [hpc] at ho
    simp only [Function.update_self, hframes] at hquits
    simp only [Executor.exec, Executor.processWorkerStream, Executor.goto, Executor.call] at ho
    split at ho <;> cases ho
    · cases hquits
    · simp only [Executor.State.Has, Function.update_self, or_true]

theorem serves_back
    (hr : ReachableWhen (clusterSystem env config) (fun s a => s.keepsPace a = true) s)
    (hs : s.step env config a = some s') {t : Tid} {w : String} (h : (s'.api.task t).Serves w c) :
    c ∉ s.api.shared.connections ∨ (s.api.task t).Serves w c ∧
      ∀ e : JobEvent, e.jobId.parse.isSome = true → s.api.Has t c e → s'.api.Has t c e := by
  cases step_cases hs with
  | api hadmits hstep =>
    exact Executor.serves_step (handled hr) (isProper_of_admits hr hadmits) hstep h
  | connect => exact .inr ⟨h, fun e _ he => he⟩
  | transport _ hstep => exact Executor.serves_step (handled hr) rfl hstep h
  | client => exact .inr ⟨h, fun e _ he => he⟩

theorem Accounted.step (h : Accounted s)
    (hr : ReachableWhen (clusterSystem env config) (fun s a => s.keepsPace a = true) s)
    (hs : s.step env config a = some s') : Accounted s' := by
  intro t w c hserves e he
  have hback := serves_back hr hs hserves
  have hold : (s.api.task t).Serves w c → .event e ∈ s.heardOn c → s.api.Has t c e :=
    fun hserves => h t w c hserves e
  have hparses : .event e ∈ s.heardOn c → e.jobId.parse.isSome = true :=
    fun he => event_parses hr (emitted_of_heardOn he)
  rcases (step_stream (piped hr) hs c).heardOn (delivered_le_length hr c) with
    hsame | ⟨u, w', m, rfl, hpc, hmore⟩
  · have he : .event e ∈ s.heardOn c := hsame ▸ he
    rcases hback with hfresh | ⟨hserves, hkeeps⟩
    · -- Nobody has connected to a new connection.
      have hnil := ((sound hr c).unconnected (unconnected hr c hfresh)).2
      rw [heardOn, hnil, List.take_nil] at he
      cases he
    · exact hkeeps e (hparses he) (hold hserves he)
  · have hreads := (serves_of_reading (reachable_api hr) hpc).2
    rcases hback with hfresh | ⟨hserves₀, hkeeps⟩
    · exact absurd (mem_connections_of_serves hr hreads) hfresh
    · obtain rfl := (Executor.served (handled hr)).unique t u w w' c hserves₀.1 hreads.1
      have he : .event e ∈ s.heardOn c ++ [m] := hmore ▸ he
      rcases List.mem_append.1 he with he | he
      · exact hkeeps e (hparses he) (hold hserves₀ he)
      · obtain rfl := List.mem_singleton.1 he
        cases step_cases hs with
        | api _ hstep => exact has_of_inbound (reachable_api hr) hpc hstep hserves.2

theorem accounted
    (h : ReachableWhen (clusterSystem env config) (fun s a => s.keepsPace a = true) s) :
    Accounted s :=
  h.invariant (fun t w c _ e he => by cases he) fun hr hi _ hstep => hi.step hr hstep

/-! ### Heartbeats that are under way -/

theorem ended_fail (k : Client) (e : Worker.ClientError) : (k.fail e).ended = true := by
  rw [Client.ended, Client.fail_loop]

theorem heartbeat_step {k k' : Client} {b : ClientAction} {jobId : Option Uuid}
    (hs : Client.StepCase config k b k') (hlive : k'.ended = false)
    (hread : k'.heartbeat = some jobId) : k.ended = false ∧
      (k.heartbeat = some jobId ∨ b = .readCurrentJob ∧ jobId = k.currentJob) := by
  cases hs with
  | received select next turn handles =>
    refine ⟨Client.ended_of_select select, .inl ?_⟩
    cases handles with
    | assigned => exact hread
    | accepted => exact hread
    | refused => cases (ended_fail _ _).symm.trans hlive
  | delivered loop => exact ⟨Client.ended_of_deliver loop, .inl hread⟩
  | undelivered => cases (ended_fail _ _).symm.trans hlive
  | completed select => exact ⟨Client.ended_of_select select, .inl hread⟩
  | completedOther select => exact ⟨Client.ended_of_select select, .inl hread⟩
  | closedIdle => cases hlive
  | closed => cases hlive
  | readCurrentJob => exact ⟨hlive, .inr ⟨rfl, (Option.some.inj hread).symm⟩⟩
  | sentHeartbeat => cases hread
  | _ => exact ⟨hlive, .inl hread⟩

theorem newEvents_not_heartbeat {k : Client} {j : Uuid} {job : Worker.Job} {w : String} :
    .heartbeat w r ∉ k.newEvents j job := by
  intro hmem
  obtain ⟨_, -, heq⟩ := List.mem_map.1 hmem
  cases heq

theorem emitted_step {k k' : Client} {b : ClientAction} {i : Nat} {w : String}
    (hs : Client.StepCase config k b k') (hi : k'.emitted[i]? = some (.heartbeat w r)) :
    k.emitted[i]? = some (.heartbeat w r) ∨ i = k.emitted.length ∧ k.ended = false ∧
      ∃ jobId, k.heartbeat = some jobId ∧ r = jobId.map .canonical := by
  cases hs with
  | received select next turn handles =>
    left
    cases handles with
    | assigned => exact hi
    | accepted => exact hi
    | refused => rwa [(Client.fail_frame _).2.2.2.1] at hi
  | undelivered => exact .inl (by rwa [(Client.fail_frame _).2.2.2.1] at hi)
  | ran =>
    left
    rw [Client.emit, List.getElem?_append] at hi
    split at hi
    · exact hi
    · exact absurd (List.mem_of_getElem? hi) newEvents_not_heartbeat
  | @sentHeartbeat jobId connected read =>
    rw [Client.emit, List.getElem?_append] at hi
    split at hi
    · exact .inl hi
    · next hle =>
      right
      obtain ⟨hlast, hsame⟩ := List.getElem?_eq_some_iff.1 hi
      have hlast : i - k.emitted.length < 1 := hlast
      have hle : ¬ i < k.emitted.length := hle
      refine ⟨by omega, ?_, jobId, read, ?_⟩
      · cases hloop : k.loop <;> simp_all [Client.connected, Client.ended]
      · simp_all
  | _ => exact .inl hi

theorem StreamStep.heartbeat {sent pending : List ApiMessage} {k : Client} {jobId : Option Uuid}
    (h : StreamStep env config s a c sent pending k) (hlive : k.ended = false)
    (hread : k.heartbeat = some jobId) : (s.client c).ended = false ∧
      ((s.client c).heartbeat = some jobId ∨
        a = .client c .readCurrentJob ∧ jobId = (s.client c).currentJob) := by
  cases h with
  | connected at_ fresh => exact ⟨by rw [Client.ended, fresh], .inl hread⟩
  | stepped client step =>
    subst client
    refine (heartbeat_step step hlive hread).imp_right (Or.imp_right ?_)
    rintro ⟨rfl, hjob⟩
    exact ⟨rfl, hjob⟩
  | _ => exact ⟨hlive, .inl hread⟩

theorem StreamStep.emitted_heartbeat {sent pending : List ApiMessage} {k : Client} {i : Nat}
    {w : String} (h : StreamStep env config s a c sent pending k)
    (hi : k.emitted[i]? = some (.heartbeat w r)) :
    (s.client c).emitted[i]? = some (.heartbeat w r) ∨
      i = (s.client c).emitted.length ∧ (s.client c).ended = false ∧
        ∃ jobId, (s.client c).heartbeat = some jobId ∧ r = jobId.map .canonical := by
  cases h with
  | stepped client step => exact emitted_step step hi
  | _ => exact .inl hi

theorem heartbeat_taken (hp : Piped s) (hs : s.step env config a = some s') {t : Tid} {w : String}
    (hpc : (s'.api.task t).pc = .heartbeat w c r) :
    ∃ ahead, s.UnderWay c r ahead ∧ ahead ⊆ s'.heardOn c := by
  have hgrows : ∀ c, s.heardOn c ⊆ s'.heardOn c := fun c =>
    (take_prefix_take (step_stream hp hs c).emitted (step_stream hp hs c).delivered_le).subset
  refine tasks_step (P := fun _ pc => ∀ w c r, pc = .heartbeat w c r →
    ∃ ahead, s.UnderWay c r ahead ∧ ahead ⊆ s'.heardOn c) hs ?_ ?_ ?_ ?_ t w c r hpc
  · exact fun t w c r hpc => ⟨_, .taken hpc, hgrows c⟩
  · intro n op _ hop w c r hpc
    cases op <;> first | exact absurd hop Bool.false_ne_true | cases hpc
  · intro t x f w c r hpc
    cases (congrArg Executor.Pc.intake hpc).symm.trans (Executor.Frame.resume_intake x f)
  · intro t choice o _ hadmits ho w c r hpc
    have hintake := Executor.exec_intake ho
    generalize hat : (s.api.task t).pc = pc at hintake
    cases hintake with
    | other accepted later => cases (congrArg Executor.Pc.intake hpc).symm.trans later
    | heartbeat inbound =>
      subst inbound
      cases hpc
      simp only [admits, delivery, hat, decide_eq_true_eq] at hadmits
      exact ⟨_, .sent (Nat.le_refl _) hadmits, hgrows c⟩
    | _ => cases hpc

theorem UnderWay.back (hp : Piped s) (hs : s.step env config a = some s')
    (h : s'.UnderWay c r ahead) :
    ∃ ahead₀, ahead₀ ⊆ ahead ∧ (s.UnderWay c r ahead₀ ∨
      a = .client c .readCurrentJob ∧ (s.client c).ended = false ∧
        r = (s.client c).currentJob.map .canonical ∧ ahead₀ = (s.client c).emitted) := by
  have hstream := step_stream hp hs c
  cases h with
  | read live read =>
    refine ⟨_, hstream.emitted.subset, ?_⟩
    obtain ⟨hlive, hread | ⟨rfl, rfl⟩⟩ := hstream.heartbeat live read
    · exact .inl (.read hlive hread)
    · exact .inr ⟨rfl, hlive, rfl, rfl⟩
  | @sent i w _ waits at_ =>
    rcases hstream.emitted_heartbeat at_ with hold | ⟨rfl, hlive, jobId, hread, rfl⟩
    · exact ⟨_, (take_prefix_take hstream.emitted (Nat.le_refl i)).subset,
        .inl (.sent (hstream.delivered_le.trans waits) hold)⟩
    · refine ⟨_, ?_, .inl (.read hlive hread)⟩
      have hprefix := take_prefix_take hstream.emitted (Nat.le_refl (s.client c).emitted.length)
      rw [List.take_length] at hprefix
      exact hprefix.subset
  | taken at_ =>
    obtain ⟨ahead₀, hold, hsub⟩ := heartbeat_taken hp hs at_
    exact ⟨ahead₀, hsub, .inl hold⟩

theorem assignedOn_kept (hp : Piped s) (hapart : s.Apart a) (hs : s.step env config a = some s')
    (h : s.UnderWay c r ahead) : s'.assignedOn c = s.assignedOn c := by
  have hstream := step_stream hp hs c
  unfold assignedOn
  generalize s'.sent c = sent, s'.pending c = pending, s'.client c = k at hstream
  cases hstream with
  | sent run sends =>
    subst run
    cases sends with
    | assignment at_ chosen worker connection =>
      subst chosen
      simp only [Apart, at_] at hapart
      exact absurd (connection ▸ h) (hapart _ worker _ _)
    | command => simp [ApiMessage.assigned]
  | _ => rfl

theorem holds_of_read
    (h : ReachableWhen (clusterSystem env config) (fun s a => s.keepsPace a = true) s)
    (hpending : s.pendingJobs c = []) (hlive : (s.client c).ended = false) :
    Holds (s.assignedOn c) (s.client c).emitted
      ((s.client c).currentJob.map .canonical) := by
  have hassigned : s.assignedOn c = (s.client c).assignedJobs := by
    have hnil : (s.pending c).filterMap ApiMessage.assigned = [] := hpending
    rw [assignedOn, ← (piped h).stream c, List.filterMap_append, hnil, List.append_nil,
      Client.assignedJobs]
  rw [hassigned]
  have hslot := (sound h c).slot hlive
  have hreported := reported h c
  cases hactive : (s.client c).active with
  | none =>
    rw [hactive] at hslot
    obtain ⟨hcurrent, hrunning, -⟩ := hslot.of_none
    rw [hcurrent]
    intro j hj
    exact hreported.exited hlive j hj ((sound h c).returned j (by rw [hrunning]; simp))
  | some j =>
    rw [hactive] at hslot
    rw [hslot.of_some.1]
    exact ⟨j, rfl, hreported.latest j hactive⟩

theorem not_underWay_new : ¬ UnderWay .new c r ahead := by
  rintro (⟨-, hread⟩ | ⟨-, hsent⟩ | @⟨t, _, _, hpc⟩)
  · cases hread
  · cases hsent
  · cases t <;> cases hpc

theorem keepsPace_of_keepsApart (h : ReachableWhen (clusterSystem env config) KeepsApart s) :
    ReachableWhen (clusterSystem env config) (fun s a => s.keepsPace a = true) s :=
  h.weaken fun _ _ hc => hc.1

theorem Holds.step (hr : ReachableWhen (clusterSystem env config) KeepsApart s)
    (h : ∀ r ahead, s.UnderWay c r ahead → Holds (s.assignedOn c) ahead r) (hc : s.KeepsApart a)
    (hs : s.step env config a = some s') (hway : s'.UnderWay c r ahead) :
    Holds (s'.assignedOn c) ahead r := by
  obtain ⟨ahead₀, hsub, hold | ⟨rfl, hlive, rfl, rfl⟩⟩ := hway.back (piped hr) hs
  · rw [assignedOn_kept (piped hr) hc.2 hs hold]
    exact (h r ahead₀ hold).mono hsub
  · have hread := holds_of_read (keepsPace_of_keepsApart hr) hc.2 hlive
    cases step_cases hs with
    | client => exact hread.mono hsub

/-- The report of a heartbeat that is under way holds. -/
theorem holds (h : ReachableWhen (clusterSystem env config) KeepsApart s)
    (hway : s.UnderWay c r ahead) : Holds (s.assignedOn c) ahead r :=
  h.invariant (I := fun s => ∀ c r ahead, s.UnderWay c r ahead → Holds (s.assignedOn c) ahead r)
    (fun _ _ _ hway => absurd hway not_underWay_new)
    (fun hr hi hc hs c _ _ hway => Holds.step hr (hi c) hc hs hway) c r ahead hway

/-! ### The check -/

theorem serves_of_heartbeat
    (h : ReachableWhen (clusterSystem env config) (fun s a => s.keepsPace a = true) s) {t : Tid}
    {w : String} (hpc : (s.api.task t).pc = .heartbeat w c r) :
    s.api.task t = ⟨.heartbeat w c r, [.processWorkerStream w c]⟩ ∧
      (s.api.task t).Serves w c := by
  have hframes := (Executor.based (handled h) t).heartbeat w c r hpc
  have htask : s.api.task t = ⟨.heartbeat w c r, [.processWorkerStream w c]⟩ := by
    rw [← hpc, ← hframes]
  exact ⟨htask, htask ▸ ⟨rfl, rfl⟩⟩

/-- All exits that were heard are accepted, and the handler that is not at work on one of them
has freed the worker. -/
theorem idle_of_exited
    (h : ReachableWhen (clusterSystem env config) (fun s a => s.keepsPace a = true) s) {t : Tid}
    {w : String} {hd : Executor.WorkerHandle} (hpc : (s.api.task t).pc = .heartbeat w c r)
    (hw : s.api.shared.workers.lookup w = some hd) (hconnection : hd.connectionId = c)
    (hexits : Holds (s.assignedOn c) (s.heardOn c) none) : hd.currentJob = none := by
  subst hconnection
  obtain ⟨-, hserves⟩ := serves_of_heartbeat h hpc
  by_contra hbusy
  obtain ⟨j, hj⟩ := Option.ne_none_iff_exists'.1 hbusy
  obtain ⟨e, he, hexited⟩ :=
    hexits j (Executor.mem_assignedJobs_of_current (reachable_api h) hw hj)
  have haccepted : e ∈ s.api.shared.accepted hd.connectionId :=
    (accounted h t w _ hserves e he).resolve_right fun hevent => by
      cases hpc.symm.trans hevent
  obtain ⟨u, hanswers, hrole⟩ :=
    Executor.answers_of_exited (handled h) hw hj ⟨e, haccepted, hexited⟩
  obtain rfl := (Executor.served (handled h)).unique t u w w _ hserves.1 hanswers.stream
  refine hrole ?_
  simp only [Executor.Task.role, hpc, Executor.Pc.role]

theorem checkReport_of_holds (h : ReachableWhen (clusterSystem env config) KeepsApart s) {t : Tid}
    {w : String} {hd : Executor.WorkerHandle} (hpc : (s.api.task t).pc = .heartbeat w c r)
    (hw : s.api.shared.workers.lookup w = some hd) (hconnection : hd.connectionId = c)
    (hgrace : hd.inGrace s.api.shared.instant r = true) :
    hd.checkReport s.api.shared.instant r = .ok () := by
  have hholds := holds h (.taken hpc)
  cases r with
  | none =>
    exact Executor.checkReport_idle
      (idle_of_exited (keepsPace_of_keepsApart h) hpc hw hconnection hholds)
  | some r =>
    obtain ⟨j, rfl, hlast⟩ := hholds
    subst hconnection
    exact Executor.checkReport_latest
      ((Executor.latest (reachable_api h) w hd hw).trans hlast) hgrace

theorem step_run {t : Tid} {choice : Executor.Choice} {api : Executor.State}
    (hpc : ∀ w c, (s.api.task t).pc ≠ .processWorkerStream w c)
    (hrun : s.api.run env t choice = some api) :
    s.step env config (.api (.run t choice)) = some ⟨api, s.client⟩ := by
  have hdelivery : s.delivery (.run t choice) = none := by
    unfold delivery
    split
    · next heq =>
      cases heq
      split
      · next hreads => exact absurd hreads (hpc _ _)
      · rfl
    · rfl
  have hadmits : s.admits (.run t choice) = true := by
    simp only [admits, hdelivery]
  have hstep : s.api.step env (.run t choice) = some api := hrun
  rw [step, if_pos hadmits, hstep, delivered, hdelivery]
  rfl

theorem step_resume {t : Tid} {x : Executor.Ret} {f : Executor.Frame}
    {frames : List Executor.Frame} (htask : s.api.task t = ⟨.done x, f :: frames⟩)
    (choice : Executor.Choice) :
    ∃ s', s.step env config (.api (.run t choice)) = some s' ∧
      s'.api.task t = ⟨f.resume x, frames⟩ := by
  have hrun : s.api.run env t choice = some (s.api.setTask t ⟨f.resume x, frames⟩) := by
    simp only [Executor.State.run, htask]
  refine ⟨_, step_run (fun w c hreads => ?_) hrun, Function.update_self _ _ _⟩
  rw [htask] at hreads
  cases hreads

theorem heartbeat_ok (h : ReachableWhen (clusterSystem env config) KeepsApart s) {t : Tid}
    {choice : Executor.Choice} {w : String} (hpc : (s.api.task t).pc = .heartbeat w c r)
    (hc : s.KeepsApart (.api (.run t choice))) :
    ∃ s', s.step env config (.api (.run t choice)) = some s' ∧
      s'.api.task t = ⟨.done .unit, [.processWorkerStream w c]⟩ := by
  obtain ⟨htask, hserves⟩ := serves_of_heartbeat (keepsPace_of_keepsApart h) hpc
  obtain ⟨hd, hw, hconnection⟩ :=
    (Executor.served (handled (keepsPace_of_keepsApart h))).registered t w c hserves.1
  have hgrace : hd.inGrace s.api.shared.instant r = true := by
    have hpace := hc.1
    simp only [keepsPace, Executor.State.inGrace, hpc, hw, Option.all_some, Bool.and_eq_true]
      at hpace
    exact hpace.1.1
  have hcheck := checkReport_of_holds h hpc hw hconnection hgrace
  subst hconnection
  have hexec := Executor.heartbeat_of_checkReport hw hcheck
  have hrun : s.api.run env t choice =
      some ⟨s.api.shared.setWorker w { hd with lastSeen := s.api.shared.instant },
        update s.api.task t ⟨.done .unit, [.processWorkerStream w hd.connectionId]⟩⟩ := by
    simp only [Executor.State.run, htask, Executor.exec, hexec]
    rfl
  refine ⟨_, step_run (fun w c hreads => ?_) hrun, Function.update_self _ _ _⟩
  cases hpc.symm.trans hreads

/-- If no heartbeat and no assignment are under way on one connection together, `heartbeat`
accepts every report, and the handler goes on reading. -/
theorem heartbeat_never_ends_stream (h : ReachableWhen (clusterSystem env config) KeepsApart s)
    {t : Tid} {choice : Executor.Choice} {w : String}
    (hpc : (s.api.task t).pc = .heartbeat w c r)
    (hc : s.KeepsApart (.api (.run t choice))) :
    ∃ s', s.step env config (.api (.run t choice)) = some s' ∧
      s'.api.task t = ⟨.done .unit, [.processWorkerStream w c]⟩ ∧
      ∀ choice', ∃ s'', s'.step env config (.api (.run t choice')) = some s'' ∧
        s''.api.task t = ⟨.processWorkerStream w c, []⟩ := by
  obtain ⟨s', hstep, htask⟩ := heartbeat_ok h hpc hc
  exact ⟨s', hstep, htask, fun choice' => step_resume htask choice'⟩

/-! ### Runs -/

def isQuiet (s : Cluster) (t : Tid) (c : Uuid) : Bool :=
  match (s.api.task t).pc with
  | .processWorkerStream _ c' =>
    c' = c && (s.client c).heartbeat.isNone &&
      decide ((s.client c).emitted.length ≤ (s.client c).delivered)
  | _ => false

/-- A test for `KeepsApart`, where task `t` handles the only worker. -/
def takesTurns (t : Tid) (s : Cluster) (a : Action) : Bool :=
  s.keepsPace a &&
    match a with
    | .api (.run _ (.candidate w)) =>
      (s.api.shared.workers.lookup w).all fun hd => s.isQuiet t hd.connectionId
    | .client c .readCurrentJob => (s.pendingJobs c).isEmpty
    | _ => true

theorem not_underWay_of_isQuiet
    (h : ReachableWhen (clusterSystem env config) (fun s a => s.keepsPace a = true) s) {t : Tid}
    (hquiet : s.isQuiet t c = true) : ¬ s.UnderWay c r ahead := by
  unfold isQuiet at hquiet
  split at hquiet
  · next w c' hpc =>
    simp only [Bool.and_eq_true, decide_eq_true_eq, Option.isNone_iff_eq_none] at hquiet
    obtain ⟨⟨rfl, hnone⟩, hheard⟩ := hquiet
    rintro (⟨-, hread⟩ | ⟨hwaits, hsent⟩ | @⟨u, w', _, hchecks⟩)
    · cases hnone.symm.trans hread
    · rw [List.getElem?_eq_none (hheard.trans hwaits)] at hsent
      cases hsent
    · -- The connection has no second handler that could be at a heartbeat.
      have hreads := (serves_of_reading (reachable_api h) hpc).2
      obtain rfl := (Executor.served (handled h)).unique t u w w' _ hreads.1
        (serves_of_heartbeat h hchecks).2.1
      cases hpc.symm.trans hchecks
  · cases hquiet

theorem keepsApart_of_takesTurns (h : ReachableWhen (clusterSystem env config) KeepsApart s)
    {t : Tid} (ha : takesTurns t s a = true) : s.KeepsApart a := by
  simp only [takesTurns, Bool.and_eq_true] at ha
  obtain ⟨hpace, hturn⟩ := ha
  refine ⟨hpace, ?_⟩
  unfold Apart
  split
  · split
    · intro hd hw reported ahead
      simp only [hw, Option.all_some] at hturn
      exact not_underWay_of_isQuiet (keepsPace_of_keepsApart h) hturn
    · trivial
  · exact List.isEmpty_iff.1 hturn
  · trivial

end

theorem eq_of_report {pc : Executor.Pc} {w : String} {c : Uuid} {r : Option JobIdText}
    (h : pc.report = some (w, c, r)) : pc = .heartbeat w c r := by
  cases pc <;> cases h
  rfl

theorem eq_of_refusal {task : Executor.Task} {status : Executor.Status} {w : String} {c : Uuid}
    (h : task.refusal = some (status, w, c)) :
    task = ⟨.done (.status status), [.processWorkerStream w c]⟩ := by
  unfold Executor.Task.refusal at h
  split at h
  · cases h
    rfl
  · cases h

def Schedule.beat (c : Uuid) : List Action := [.client c .readCurrentJob, .client c .sendHeartbeat]

/-- A heartbeat is checked before job 7 is assigned, and one when the worker has received it. -/
theorem heartbeat_names_assigned_job :
    ∃ s, ReachableWhen (clusterSystem .forTest .forTest) KeepsApart s ∧
      (s.api.task (.task 0)).pc = .heartbeat "w" 100 (some (.canonical 7)) ∧
      s.KeepsApart (.api (.run (.task 0) .go)) ∧
      ∃ s', s.step .forTest .forTest (.api (.run (.task 0) .go)) = some s' ∧
        s'.api.task (.task 0) = ⟨.done .unit, [.processWorkerStream "w" 100]⟩ := by
  have hrun : (Transition.execute
      (Transition.guarded (takesTurns (.task 0)) (Cluster.step .forTest .forTest)) .new
      (Schedule.connect 0 "w" 100 ++ Schedule.beat 100 ++ Schedule.hear 0 (.heartbeat "w" none) 2 ++
        (Executor.Schedule.submit 1 [7]).map .api ++ Schedule.assign "w" 100 ++
        .client 100 .receive :: Schedule.beat 100 ++
        Schedule.hear 0 (.heartbeat "w" (some (.canonical 7))) 0)).map (fun s =>
      takesTurns (.task 0) s (.api (.run (.task 0) .go)) &&
        decide ((s.api.task (.task 0)).pc.report = some ("w", 100, some (.canonical 7)))) =
      some true := by
    decide +kernel
  obtain ⟨s, hexecute, hp⟩ := Option.map_eq_some_iff.1 hrun
  have hs : ReachableWhen (clusterSystem .forTest .forTest) KeepsApart s :=
    ReachableWhen.execute .init (fun _ _ hr ha => keepsApart_of_takesTurns hr ha) _ hexecute
  obtain ⟨hturn, hp⟩ := Bool.and_eq_true_iff.1 hp
  have hc := keepsApart_of_takesTurns hs hturn
  have hpc := eq_of_report (of_decide_eq_true hp)
  obtain ⟨s', hstep, htask, -⟩ := heartbeat_never_ends_stream hs hpc hc
  exact ⟨s, hs, hpc, hc, s', hstep, htask⟩

/-- A heartbeat is built before job 7 is assigned and checked after it: the handler leaves its
loop and unregisters the worker. -/
theorem heartbeat_meets_assignment :
    ∃ s s', ReachableWhen (clusterSystem .forTest .forTest) (fun s a => s.keepsPace a = true) s ∧
      s.api.task (.task 0) = ⟨.done (.status
        ⟨.failedPrecondition, "Workerの現在ジョブがAPI状態と一致しません"⟩),
        [.processWorkerStream "w" 100]⟩ ∧
      s.step .forTest .forTest (.api (.run (.task 0) .go)) = some s' ∧
      s'.api.task (.task 0) =
        ⟨.unregisterWorker "w" 100 "実行WorkerとのgRPC接続が切断されました", []⟩ := by
  obtain ⟨s, hs, hp⟩ := Transition.reachableWhen_of_execute
    (f := Cluster.step .forTest .forTest) (i := .new) (c := keepsPace)
    (Schedule.connect 0 "w" 100 ++ Schedule.beat 100 ++
      (Executor.Schedule.submit 1 [7]).map .api ++ Schedule.assign "w" 100 ++
      Schedule.hear 0 (.heartbeat "w" none) 1)
    (p := fun s => (s.api.task (.task 0)).refusal =
      some (⟨.failedPrecondition, "Workerの現在ジョブがAPI状態と一致しません"⟩, "w", 100))
    (by decide +kernel)
  have htask := eq_of_refusal (of_decide_eq_true hp)
  obtain ⟨s', hstep, hresumed⟩ := step_resume htask .go
  exact ⟨s, s', hs, htask, hstep, hresumed⟩

end SmartC.Cluster
