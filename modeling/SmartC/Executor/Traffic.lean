import SmartC.Executor.Custody

/-!
# Workers and their command channels

`exec_traffic` says once what a step of an operation can do to the registered
workers, to their command channels and to the worker that a session remembers.
The laws about the order of messages on a connection are derived from it.
-/

namespace SmartC.Executor

open Function (update)

def Pc.addresses : Pc → Bool
  | .sendCommandWorker .. | .sendCommandSend .. => true
  | _ => false

inductive Traffic (env : Env) (choice : Choice) (sh : Shared) : Pc → Outcome → Prop
  | quiet {pc o} (workers : o.shared.workers = sh.workers)
      (channel : o.shared.channel = sh.channel) (connections : o.shared.connections = sh.connections)
      (kept : ∀ k w, (o.shared.inner k).assignedWorker = some w →
        (sh.inner k).assignedWorker = some w)
      (later : o.pc.addresses = false) : Traffic env choice sh pc o
  | named {j action w} (worker : (sh.inner j).assignedWorker = some w) :
      Traffic env choice sh (.sendCommand j action) ⟨sh, .sendCommandWorker j action w, none⟩
  | found {j action w h} (worker : sh.workers.lookup w = some h) :
      Traffic env choice sh (.sendCommandWorker j action w)
        ⟨sh, .sendCommandSend j action w h.connectionId, none⟩
  | sent {j action w c ch} (sent : (sh.channel c).trySend (.command ⟨j, some action⟩) = .ok ch) :
      Traffic env choice sh (.sendCommandSend j action w c) ⟨sh.setChannel c ch, .done .unit, none⟩
  | registered {r capacity c} (fresh : c ∉ sh.connections)
      (free : sh.workers.lookup r.workerId = none) (acceptable : AcceptableWorker env.config r) :
      Traffic env choice sh (.registerWorker r capacity)
        ⟨{ (sh.setWorker r.workerId
            ⟨c, r.architecture, r.backend, none, none, sh.instant⟩).setChannel c
              ⟨capacity, [], 0, false⟩ with
          connections := insert c sh.connections }, .registerWorkerNotify c, none⟩
  | seen {pc w h accepted pc'} (worker : sh.workers.lookup w = some h)
      (later : pc'.addresses = false) :
      Traffic env choice sh pc
        ⟨{ sh.setWorker w { h with lastSeen := sh.instant } with accepted := accepted }, pc', none⟩
  | freed {j e w h} (worker : sh.workers.lookup w = some h) (current : h.currentJob = some j) :
      Traffic env choice sh (.completeSession j e (.freeWorker (some w)))
        ⟨sh.setWorker w { h with
          currentJob := none, recentlyCompletedJob := some (j, sh.instant) },
          .completeSession j e .count, none⟩
  | lost {w c detail h} (worker : sh.workers.lookup w = some h) (connection : h.connectionId = c) :
      Traffic env choice sh (.unregisterWorker w c detail)
        ⟨{ sh with workers := sh.workers.erase w }, .unregisterWorkerCount h.currentJob detail, none⟩
  | assigned {j w h ch} (room : sh.busy < env.config.globalConcurrency)
      (worker : sh.workers.lookup w = some h) (idle : h.currentJob = none)
      (sent : (sh.channel h.connectionId).trySend (.assignment (sh.assignment j)) = .ok ch)
      (chosen : choice = .candidate w) :
      Traffic env choice sh (.dispatchWorkers j)
        ⟨(((sh.setInnerLock j none).setChannel h.connectionId ch).setWorker w
          { h with currentJob := some j }).setInner j
            { sh.inner j with assignedWorker := some w }, .dispatchPop, none⟩

variable {env : Env} {t : Tid} {choice : Choice} {sh : Shared} {pc : Pc} {o : Outcome}

theorem assignedWorker_update {inner : Uuid → SessionInner} {i : SessionInner}
    (hi : ∀ w, i.assignedWorker = some w → (inner j).assignedWorker = some w) (k : Uuid)
    (w : String) (hw : (update inner j i k).assignedWorker = some w) :
    (inner k).assignedWorker = some w := by
  by_cases hk : k = j
  · subst hk; exact hi w (by simpa using hw)
  · simpa [hk] using hw

theorem exec_traffic (h : exec env t choice sh pc = some o) : Traffic env choice sh pc o := by
  cases exec_branch h with
  | named free worker => exact .named worker
  | found worker => exact .found worker
  | sent sent => exact .sent sent
  | registered acceptable drawn fresh free => exact .registered fresh free acceptable
  | beat worker => exact @Traffic.seen _ _ sh _ _ _ sh.accepted _ worker rfl
  | accepted job worker => exact .seen worker rfl
  | freed worker current => exact .freed worker current
  | lost worker connection => exact .lost worker connection
  | assigned room chosen worker idle sent => exact .assigned room worker idle sent chosen
  | admitted | activated | stdin | phaseChanged | compilerCounted | compilerLimited
  | terminalCounted | terminalLimited | released =>
    exact .quiet rfl rfl rfl (assignedWorker_update fun _ hw => hw) rfl
  | inserted => exact .quiet rfl rfl rfl (assignedWorker_update fun _ hw => by cases hw) rfl
  | finished => exact .quiet rfl rfl rfl (assignedWorker_update (by simp)) rfl
  | _ => exact .quiet rfl rfl rfl (fun _ _ hw => hw) rfl

/-! ### One channel -/

def Channel.hasRoom (ch : Channel) : Bool :=
  !ch.closed && ch.sent.length - ch.taken < ch.capacity

theorem Channel.hasRoom_of_trySend {ch ch' : Channel} {m : ApiMessage}
    (h : ch.trySend m = .ok ch') : ch.hasRoom = true := by
  simp only [Channel.trySend] at h
  split at h
  · cases h
  · split at h
    · cases h
    · simp_all [Channel.hasRoom]

/-- The dispatcher gives a job to the worker: fewer jobs run than may, the worker has none and
its channel takes the assignment. -/
def Shared.gives (config : AppConfig) (sh : Shared) (h : WorkerHandle) : Bool :=
  sh.busy < config.globalConcurrency && h.currentJob.isNone && (sh.channel h.connectionId).hasRoom

inductive Sends (env : Env) (s : State) (t : Tid) (choice : Choice) (c : Uuid) :
    ApiMessage → Prop
  | assignment {j w h} (at_ : (s.task t).pc = .dispatchWorkers j) (chosen : choice = .candidate w)
      (worker : s.shared.workers.lookup w = some h) (connection : h.connectionId = c)
      (idle : h.currentJob = none) (gives : s.shared.gives env.config h = true) :
      Sends env s t choice c (.assignment (s.shared.assignment j))
  | command {j action w} (at_ : (s.task t).pc = .sendCommandSend j action w c)
      (room : (s.shared.channel c).hasRoom = true) :
      Sends env s t choice c (.command ⟨j, some action⟩)

inductive ChannelStep (env : Env) (s : State) (a : Action) (c : Uuid) : Channel → Prop
  | same : ChannelStep env s a c (s.shared.channel c)
  | sent {t choice m ch} (run : a = .run t choice) (sends : Sends env s t choice c m)
      (sent : (s.shared.channel c).trySend m = .ok ch) : ChannelStep env s a c ch
  | opened {t choice capacity} (run : a = .run t choice) (fresh : c ∉ s.shared.connections) :
      ChannelStep env s a c ⟨capacity, [], 0, false⟩
  | taken {ch} (take : a = .take c) (taken : (s.shared.channel c).take = some ch) :
      ChannelStep env s a c ch
  | closed (hangUp : a = .hangUp c) :
      ChannelStep env s a c { s.shared.channel c with closed := true }

section

variable {s s' : State} {a : Action}

theorem ChannelStep.update {c : Uuid} {ch : Channel} (h : ChannelStep env s a c ch) (c' : Uuid) :
    ChannelStep env s a c' (update s.shared.channel c ch c') := by
  by_cases hc : c' = c
  · subst hc
    rw [Function.update_self]
    exact h
  · rw [Function.update_of_ne hc]
    exact .same

theorem exec_channel (ho : exec env t choice s.shared (s.task t).pc = some o) (c : Uuid) :
    ChannelStep env s (.run t choice) c (o.shared.channel c) := by
  have htraffic := exec_traffic ho
  generalize hpc : (s.task t).pc = pc at htraffic
  cases htraffic with
  | quiet workers channel => rw [channel]; exact .same
  | named => exact .same
  | found => exact .same
  | sent sent =>
    exact ChannelStep.update (.sent rfl (.command hpc (Channel.hasRoom_of_trySend sent)) sent) c
  | registered fresh free => exact ChannelStep.update (.opened rfl fresh) c
  | seen => exact .same
  | freed => exact .same
  | lost => exact .same
  | @assigned j w h ch room worker idle sent chosen =>
    have hgives : s.shared.gives env.config h = true := by
      rw [Shared.gives, idle, Channel.hasRoom_of_trySend sent, decide_eq_true room]
      rfl
    exact ChannelStep.update (.sent rfl (.assignment hpc chosen worker rfl idle hgives) sent) c

theorem State.step_channel (h : s.step env a = some s') (c : Uuid) :
    ChannelStep env s a c (s'.shared.channel c) := by
  cases a with
  | start n op =>
    simp only [State.step, State.start] at h
    repeat' split at h
    all_goals cases h
    exact .same
  | run t choice =>
    rcases State.run_cases h with ⟨r, f, frames, -, rfl⟩ | ⟨o, ho, rfl⟩
    · exact .same
    · exact exec_channel ho c
  | tick d => cases h; exact .same
  | setClock unix => cases h; exact .same
  | take c' =>
    obtain ⟨ch, hch, rfl⟩ := Option.map_eq_some_iff.mp h
    exact ChannelStep.update (.taken rfl hch) c
  | hangUp c' => cases h; exact ChannelStep.update (.closed rfl) c

theorem Channel.trySend_ok {ch ch' : Channel} {m : ApiMessage} (h : ch.trySend m = .ok ch') :
    ch' = { ch with sent := ch.sent ++ [m] } ∧ ch.capacity ≠ 0 := by
  simp only [Channel.trySend] at h
  split at h
  · cases h
  split at h
  · cases h
  · cases h
    exact ⟨rfl, by omega⟩

theorem Channel.take_some {ch ch' : Channel} (h : ch.take = some ch') :
    ch' = { ch with taken := ch.taken + 1 } ∧ ch.taken < ch.sent.length := by
  simp only [Channel.take] at h
  split at h
  · next hlt =>
    cases h
    exact ⟨rfl, hlt⟩
  · cases h

def Shared.Unopened (sh : Shared) : Prop :=
  ∀ c, c ∉ sh.connections → (sh.channel c).capacity = 0 ∧ (sh.channel c).sent = []

theorem unopened_update {c : Uuid} {ch : Channel} (h : sh.Unopened)
    (hopen : (sh.channel c).capacity ≠ 0) (c' : Uuid) (hc' : c' ∉ sh.connections) :
    (update sh.channel c ch c').capacity = 0 ∧ (update sh.channel c ch c').sent = [] := by
  have hne : c' ≠ c := by
    rintro rfl
    exact hopen (h c' hc').1
  rw [Function.update_of_ne hne]
  exact h c' hc'

theorem exec_unopened (h : sh.Unopened) (ho : exec env t choice sh pc = some o) :
    o.shared.Unopened := by
  cases exec_traffic ho with
  | quiet _ channel connections =>
    intro c hc
    rw [channel]
    exact h c (connections ▸ hc)
  | named => exact h
  | found => exact h
  | sent sent => exact unopened_update h (Channel.trySend_ok sent).2
  | @registered r capacity c fresh free =>
    intro c' hc'
    have hne : c' ≠ c := fun heq => hc' (heq ▸ Finset.mem_insert_self ..)
    simp only [Shared.setChannel, Shared.setWorker, Function.update_of_ne hne]
    exact h c' fun hmem => hc' (Finset.mem_insert_of_mem hmem)
  | seen => exact h
  | freed => exact h
  | lost => exact h
  | assigned _ _ _ sent => exact unopened_update h (Channel.trySend_ok sent).2

theorem Shared.Unopened.setChannel {c : Uuid} {ch : Channel} (h : sh.Unopened)
    (capacity : ch.capacity = (sh.channel c).capacity) (sent : ch.sent = (sh.channel c).sent) :
    (sh.setChannel c ch).Unopened := by
  intro c' hc'
  by_cases hc : c' = c
  · subst hc
    simp only [Shared.setChannel, Function.update_self, capacity, sent]
    exact h c' hc'
  · simp only [Shared.setChannel, Function.update_of_ne hc]
    exact h c' hc'

theorem State.step_unopened (h : s.shared.Unopened) (hs : s.step env a = some s') :
    s'.shared.Unopened := by
  cases a with
  | start n op =>
    simp only [State.step, State.start] at hs
    repeat' split at hs
    all_goals cases hs
    exact h
  | run t choice =>
    rcases State.run_cases hs with ⟨r, f, frames, -, rfl⟩ | ⟨o, ho, rfl⟩
    · exact h
    · exact exec_unopened h ho
  | tick d => cases hs; exact h
  | setClock unix => cases hs; exact h
  | take c =>
    obtain ⟨ch, hch, rfl⟩ := Option.map_eq_some_iff.mp hs
    obtain ⟨rfl, -⟩ := Channel.take_some hch
    exact h.setChannel rfl rfl
  | hangUp c => cases hs; exact h.setChannel rfl rfl

end

/-! ### What is taken in and passed on -/

/-- The operation works on a message of a worker or on a command for one. -/
def Pc.intake : Pc → Bool
  | .heartbeat .. | .handleWorkerEvent .. | .handleWorkerEventSession .. | .applyPhase ..
  | .sendStdin .. | .sendCommand .. | .sendCommandWorker .. | .sendCommandSend .. => true
  | .completeSession _ e .finish => e.phase == .running
  | _ => false

def Pc.command : Pc → Option (Uuid × CommandAction)
  | .sendCommand j action | .sendCommandWorker j action _ | .sendCommandSend j action _ _ =>
    some (j, action)
  | _ => none

/-- How the messages of a worker come in, and how the commands for it come about. -/
inductive Intake (sh : Shared) (choice : Choice) : Pc → Outcome → Prop
  | other {source target} (accepted : target.shared.accepted = sh.accepted)
      (later : target.pc.intake = false) : Intake sh choice source target
  | heartbeat {w c reported} (inbound : choice = .inbound (some (.heartbeat w reported))) :
      Intake sh choice (.processWorkerStream w c)
        ⟨sh, .heartbeat w c reported, some (.processWorkerStream w c)⟩
  | event {w c e} (inbound : choice = .inbound (some (.event e))) (sender : e.workerId = w) :
      Intake sh choice (.processWorkerStream w c)
        ⟨sh, .handleWorkerEvent c e, some (.processWorkerStream w c)⟩
  | accepted {c e j h} (job : e.jobId.parse = some j)
      (worker : sh.workers.lookup e.workerId = some h) (connection : h.connectionId = c)
      (current : h.currentJob = some j) :
      Intake sh choice (.handleWorkerEvent c e)
        ⟨{ sh.setWorker e.workerId { h with lastSeen := sh.instant } with
          accepted := update sh.accepted c (sh.accepted c ++ [e]) },
          .handleWorkerEventSession j e.payload, none⟩
  | phase {j code} :
      Intake sh choice (.handleWorkerEventSession j (some (.phase code)))
        ⟨sh, .applyPhase j code, none⟩
  | frame {s data written limiter}
      (incoming : choice = .incoming (some (.binary data)) written) :
      Intake sh choice (.websocketSelect s)
        ⟨sh, .sendStdin s.session data, some (.websocketHandled { s with limiter := limiter })⟩
  | stdin {j data inner} (short : data.length ≤ 8 * 1024)
      (running : (sh.inner j).phase = .running) :
      Intake sh choice (.sendStdin j data)
        ⟨sh.setInner j inner, .sendCommand j (.stdin data), none⟩
  | resize {j cols rows} (valid : validateTerminal ⟨cols, rows⟩ = .ok ()) :
      Intake sh choice (.resize j cols rows)
        ⟨sh, .sendCommand j (.resize cols.toUInt32 rows.toUInt32), none⟩
  | stop {kind j} :
      Intake sh choice (.stop kind j) ⟨sh, .sendCommand j (.cancel kind.commandReason), none⟩
  | named {j action w} :
      Intake sh choice (.sendCommand j action) ⟨sh, .sendCommandWorker j action w, none⟩
  | found {j action w c} :
      Intake sh choice (.sendCommandWorker j action w) ⟨sh, .sendCommandSend j action w c, none⟩

theorem exec_intake (h : exec env t choice sh pc = some o) : Intake sh choice pc o := by
  cases exec_branch h with
  | heartbeatRead inbound => exact .heartbeat inbound
  | eventRead inbound own => exact .event inbound own
  | accepted job worker connection current => exact .accepted job worker connection current
  | phaseEvent => exact .phase
  | stdinFrame incoming => exact .frame incoming
  | stdin short free running => exact .stdin short running
  | resized valid => exact .resize valid
  | stopAssigned => exact .stop
  | named => exact .named
  | found => exact .found
  | @exitEvent _ _ reason => exact .other rfl (by cases reason <;> rfl)
  | @dequeued kind => exact .other rfl (by cases kind <;> rfl)
  | _ => exact .other rfl rfl

theorem Pc.command_of_intake {pc : Pc} (h : pc.intake = false) : pc.command = none := by
  cases pc <;> first | rfl | cases h

theorem Frame.resume_intake (r : Ret) (f : Frame) : (f.resume r).intake = false := by
  cases f <;> simp only [Frame.resume] <;> (try split) <;> rfl

end SmartC.Executor
