import SmartC.Executor.Calls
import SmartC.Executor.Ledger

/-!
# The step model refines the ledger

`State.overview` reads the ledger and every task's role off a state of the
step model. `exec_refines`: seen that way, a step of an operation is a move of
its task or leaves everything as it is. Runs of the step model are therefore
runs of the ledger, under the same conditions.
-/

namespace SmartC.Executor

open Function (update)
open Transition (ReachableWhen)

/-! ### The abstraction -/

def SessionInner.flags (i : SessionInner) : Flags where
  assignedWorker := i.assignedWorker
  ticketConsumed := i.ticketConsumed
  socketConnected := i.socketConnected
  pendingActivation := i.pendingActivation
  limitsReserved := i.limitsReserved
  finished := i.finished
  limitsReleased := i.limitsReleased

def WorkerHandle.handle (h : WorkerHandle) : Handle := ⟨h.connectionId, h.currentJob⟩

def Shared.ledger (sh : Shared) : Ledger where
  created := sh.created
  sessions := sh.sessions
  visitor j := (sh.data j).visitorId
  ip j := (sh.data j).clientIp
  flags j := (sh.inner j).flags
  locked := sh.innerLock
  exits j := (sh.events j).countP BrowserEvent.closesSocket
  queue := sh.queue
  workers w := (sh.workers.lookup w).map WorkerHandle.handle
  busy := sh.busy
  assigned c := (sh.channel c).assignedJobs
  connections := sh.connections
  accepted := sh.accepted
  limits := sh.limits
  notify := sh.notify
  createdTotal := sh.metrics.createdTotal
  completedTotal := sh.metrics.completedTotal

/-- On whose behalf `complete_session` runs, by the frame that waits for it. -/
def Frame.cause : Option Frame → Cause
  | some .exitApplied => .exited
  | some .unregisterWorkerNotify => .lost
  | _ => .stopped

/-- What is left to do when `complete_session` has returned. -/
def Cause.after : Cause → Role
  | .stopped | .exited => .idle
  | .lost => .notifying

def Pc.role (cause : Cause) : Pc → Role
  | .done _ => cause.after
  | .createExecutionCount j => .counting j
  | .consumeTicketQueue j => .checking j
  | .consumeTicketLimits j => .admitting j
  | .activateSessionQueue j | .activateSessionLimits j => .enqueueing j
  | .activateSessionSend .. | .activateSessionNotify _ | .registerWorkerNotify _
  | .unregisterWorkerNotify | .unregisterWorkerCount none _ => .notifying
  | .dispatchSession j | .dispatchInner j => .popped j
  | .dispatchWorkers j => .assigning j
  | .dispatchPushFront j failed => .returning j failed.isNone
  | .dispatchAwait => .awaiting
  | .dispatchParked => .parked
  | .handleWorkerEventSession j (some (.exit ..)) => .reporting j
  | .stopQueue _ j => .stopping j
  | .unregisterWorkerCount (some j) _ | .unregisterWorkerSession j _
  | .unregisterWorkerSend j _ => .ending .lost j
  | .completeSession j _ .finish => .ending cause j
  | .completeSession j _ stage => .completing j stage
  | _ => .idle

def Task.role (task : Task) : Role := task.pc.role (Frame.cause task.frames.head?)

def State.overview (s : State) : Overview := ⟨s.shared.ledger, fun t => (s.task t).role⟩

/-! ### How updates of the shared state look in the ledger -/

theorem map_update {α β ι : Type*} [DecidableEq ι] (f : α → β) (g : ι → α) (i : ι) (a : α) :
    (fun k => f (update g i a k)) = update (fun k => f (g k)) i (f a) :=
  funext fun k => Function.apply_update (fun _ => f) g i a k

section

variable {sh : Shared} {j c : Uuid} {i : SessionInner} {w : String} {h h' : WorkerHandle}
  {ch ch' : Channel} {e : BrowserEvent} {m : ApiMessage}

theorem ledger_setInner : (sh.setInner j i).ledger =
    { sh.ledger with flags := update sh.ledger.flags j i.flags } := by
  simp only [Shared.ledger, Shared.busy, Shared.setInner, map_update SessionInner.flags]

theorem ledger_setInner_of_flags (hi : i.flags = (sh.inner j).flags) :
    (sh.setInner j i).ledger = sh.ledger := by
  rw [ledger_setInner, hi]
  simp [Shared.ledger]

theorem ledger_broadcast : (sh.broadcast j e).ledger =
    { sh.ledger with
      exits := update sh.ledger.exits j
        (sh.ledger.exits j + if e.closesSocket then 1 else 0) } := by
  simp only [Shared.ledger, Shared.busy, Shared.broadcast,
    map_update (List.countP BrowserEvent.closesSocket), List.countP_append, List.countP_singleton]

theorem ledger_broadcast_open (he : e.closesSocket = false) :
    (sh.broadcast j e).ledger = sh.ledger := by
  rw [ledger_broadcast, he]
  simp [Shared.ledger]

theorem workers_insert : (fun k => ((sh.workers.insert w h).lookup k).map WorkerHandle.handle) =
    update sh.ledger.workers w (some h.handle) := by
  funext k
  by_cases hk : k = w
  · subst hk; simp
  · simp [hk, AList.lookup_insert_ne, Shared.ledger]

theorem workers_erase : (fun k => ((sh.workers.erase w).lookup k).map WorkerHandle.handle) =
    update sh.ledger.workers w none := by
  funext k
  by_cases hk : k = w
  · subst hk; simp
  · simp [hk, AList.lookup_erase_ne, Shared.ledger]

theorem ledger_setWorker_of_handle (hw : sh.workers.lookup w = some h')
    (hh : h.handle = h'.handle) : (sh.setWorker w h).ledger = sh.ledger := by
  have hjob : h.currentJob = h'.currentJob := congrArg Handle.currentJob hh
  have hbusy : (sh.setWorker w h).busy = sh.busy :=
    AList.countValues_insert_same hw (by simp [hjob])
  have hworkers : update sh.ledger.workers w (some h.handle) = sh.ledger.workers := by
    rw [hh]
    exact Function.update_eq_self_iff.mpr (by simp [Shared.ledger, hw])
  simp only [Shared.ledger] at hworkers
  simp only [Shared.ledger, hbusy]
  simp only [Shared.setWorker, workers_insert, Shared.ledger, hworkers]

theorem assignedJobs_trySend (hs : ch.trySend m = .ok ch') :
    ch'.assignedJobs = ch.assignedJobs ++ m.assigned.toList := by
  simp only [Channel.trySend] at hs
  split at hs
  · cases hs
  · split at hs <;> cases hs
    cases hm : m.assigned <;> simp [Channel.assignedJobs, hm]

theorem ledger_setChannel : (sh.setChannel c ch).ledger =
    { sh.ledger with assigned := update sh.ledger.assigned c ch.assignedJobs } := by
  simp only [Shared.ledger, Shared.busy, Shared.setChannel, map_update Channel.assignedJobs]

theorem ledger_setChannel_of_assigned (hc : ch.assignedJobs = (sh.channel c).assignedJobs) :
    (sh.setChannel c ch).ledger = sh.ledger := by
  rw [ledger_setChannel, hc]
  simp [Shared.ledger]

end

/-! ### One step -/

theorem Move.to (hm : Move config t L r L' r') (hL : L'' = L') : Move config t L r L'' r' :=
  hL ▸ hm

def Outcome.role (cause : Cause) (o : Outcome) : Role :=
  o.pc.role (match o.frame with | none => cause | some f => Frame.cause (some f))

/-- A step leaves ledger and role as they are, or it is a move. -/
def Refines (env : Env) (t : Tid) (sh : Shared) (r : Role) (cause : Cause) (o : Outcome) : Prop :=
  o.shared.ledger = sh.ledger ∧ o.role cause = r ∨
    Move env.config t sh.ledger r o.shared.ledger (o.role cause)

variable {env : Env} {t : Tid} {choice : Choice} {sh : Shared} {o : Outcome} {cause : Cause}

theorem ledger_erase {h : WorkerHandle} (hw : sh.workers.lookup w = some h) :
    { sh with workers := sh.workers.erase w }.ledger =
      { sh.ledger with
        workers := update sh.ledger.workers w none
        busy := sh.ledger.busy - if h.currentJob.isSome then 1 else 0 } := by
  have hbusy : (sh.workers.erase w).countValues (·.currentJob.isSome) =
      sh.busy - if h.currentJob.isSome then 1 else 0 := by
    rw [Shared.busy, AList.countValues_erase _ w sh.workers, hw]
    simp
  simp only [Shared.ledger, workers_erase]
  simp only [Shared.busy, hbusy]

theorem ledger_assign {h : WorkerHandle} {i : SessionInner} (hw : sh.workers.lookup w = some h)
    (idle : h.currentJob = none)
    (hs : (sh.channel h.connectionId).trySend (.assignment (sh.assignment j)) = .ok ch) :
    (((((sh.setInnerLock j none).setChannel h.connectionId ch).setWorker w
      { h with currentJob := some j }).setInner j i)).ledger =
    { sh.ledger with
      locked := update sh.ledger.locked j none
      assigned := update sh.ledger.assigned h.connectionId
        (sh.ledger.assigned h.connectionId ++ [j])
      workers := update sh.ledger.workers w (some ⟨h.connectionId, some j⟩)
      busy := sh.ledger.busy + 1
      flags := update sh.ledger.flags j i.flags } := by
  have hassigned : ch.assignedJobs = (sh.channel h.connectionId).assignedJobs ++ [j] :=
    assignedJobs_trySend hs
  have hbusy : (sh.workers.insert w { h with currentJob := some j }).countValues
      (·.currentJob.isSome) = sh.busy + 1 := by
    rw [AList.countValues_insert, Shared.busy, AList.countValues_erase _ w sh.workers, hw]
    simp [idle]
  simp only [ledger_setInner]
  simp only [Shared.ledger, Shared.setWorker, Shared.setChannel, Shared.setInnerLock,
    workers_insert, map_update Channel.assignedJobs, hassigned]
  simp only [Shared.busy, hbusy]
  rfl

theorem busy_register {h : WorkerHandle} (free : sh.workers.lookup w = none)
    (idle : h.currentJob = none) :
    (sh.workers.insert w h).countValues (·.currentJob.isSome) =
      sh.workers.countValues (·.currentJob.isSome) := by
  rw [AList.countValues_insert, AList.countValues_erase _ w sh.workers, free]
  simp [idle]

theorem ledger_free {h : WorkerHandle} (hw : sh.workers.lookup w = some h)
    (current : h.currentJob = some j) :
    (sh.setWorker w { h with
      currentJob := none, recentlyCompletedJob := some (j, sh.instant) }).ledger =
      { sh.ledger with
        workers := update sh.ledger.workers w (some ⟨h.connectionId, none⟩)
        busy := sh.ledger.busy - 1 } := by
  have hbusy : (sh.workers.insert w { h with
      currentJob := none, recentlyCompletedJob := some (j, sh.instant) }).countValues
        (·.currentJob.isSome) = sh.busy - 1 := by
    rw [AList.countValues_insert, Shared.busy, AList.countValues_erase _ w sh.workers, hw]
    simp [current]
  simp only [Shared.ledger, Shared.setWorker, Shared.busy, workers_insert, hbusy]
  rfl

theorem ledger_workers {h : WorkerHandle} (hw : sh.workers.lookup w = some h) :
    sh.ledger.workers w = some h.handle := by
  simp [Shared.ledger, hw]

theorem handleWorkerEventSession_role (cause : Cause) {e : JobEvent}
    (job : e.jobId.parse = some j) :
    (e.exited = some j ∧ (Pc.handleWorkerEventSession j e.payload).role cause = .reporting j) ∨
      (e.exited = none ∧ (Pc.handleWorkerEventSession j e.payload).role cause = .idle) := by
  simp only [JobEvent.exited]
  rcases e.payload with _ | _ | _ | _ | _ | _ <;> simp [job, Pc.role]

theorem failed_refines {pc : Pc} (at_ : pc.fallible = true) :
    Refines env t sh (pc.role .stopped) .stopped ⟨sh, .done r, none⟩ := by
  cases pc with
  | handleWorkerEventSession j payload =>
    rcases payload with _ | _ | _ | _ | _ | _
    case some.exit => exact .inr .exitRefused
    all_goals exact .inl ⟨rfl, rfl⟩
  | _ => first | exact .inl ⟨rfl, rfl⟩ | cases at_

theorem accepted_refines {e : JobEvent} {h : WorkerHandle} (job : e.jobId.parse = some j)
    (worker : sh.workers.lookup e.workerId = some h) (current : h.currentJob = some j) :
    Refines env t sh .idle .stopped
      ⟨{ sh.setWorker e.workerId { h with lastSeen := sh.instant } with
        accepted := update sh.accepted h.connectionId (sh.accepted h.connectionId ++ [e]) },
        .handleWorkerEventSession j e.payload, none⟩ := by
  have hl : (sh.setWorker e.workerId { h with lastSeen := sh.instant }).ledger = sh.ledger :=
    ledger_setWorker_of_handle worker rfl
  refine .inr ?_
  rcases handleWorkerEventSession_role .stopped job with ⟨exited, hr⟩ | ⟨goesOn, hr⟩ <;>
    simp only [Outcome.role, hr]
  · refine .to (.reportExit (ledger_workers worker) current exited) ?_
    rw [← hl]
    rfl
  · refine .to (.report (ledger_workers worker) goesOn) ?_
    rw [← hl]
    rfl

theorem lost_refines {h : WorkerHandle} (worker : sh.workers.lookup w = some h) :
    Refines env t sh .idle .stopped
      ⟨{ sh with workers := sh.workers.erase w }, .unregisterWorkerCount h.currentJob detail, none⟩ := by
  have hl := ledger_erase worker
  right
  cases hj : h.currentJob with
  | none => exact .to (.lose (ledger_workers worker) hj) (by simpa [hj] using hl)
  | some j => exact .to (.loseBusy (ledger_workers worker) hj) (by simpa [hj] using hl)

theorem completion_refines (ho : exec env t choice sh pc = some o)
    (hg : pc.group = some .complete) : Refines env t sh (pc.role cause) cause o := by
  cases exec_branch ho with
  | completeAgain free finished =>
    cases cause with
    | stopped | exited => exact .inr (.finishAgain (by simp) finished)
    | lost => exact .inr (.lostAlready (.inr finished))
  | finished free live => exact .inr (.to (.finish free live) ledger_setInner)
  | finalPhase => exact .inr (.to .sendPhase (ledger_broadcast_open rfl))
  | exitSent => exact .inr (.to .sendExit ledger_broadcast)
  | unreserved free unreserved =>
    exact .inr (.keepLimits (by simpa [Shared.ledger, SessionInner.flags] using unreserved))
  | released free unreleased reserved =>
    exact .inr (.to (.release free unreleased reserved) ledger_setInner)
  | limitsReleased => exact .inr .settle
  | workerKept other =>
    refine .inr (.freeNothing fun w h hw hl => ?_)
    obtain ⟨handle, hlookup, rfl⟩ := Option.map_eq_some_iff.mp hl
    exact other w hw handle hlookup
  | freed worker current =>
    exact .inr (.to (.free (ledger_workers worker) current) (ledger_free worker current))
  | completed => exact .inr .complete
  | removed => exact .inr .remove
  | completeNotified =>
    cases cause with
    | stopped | exited => exact .inr .announce
    | lost => exact .inr .announceLoss
  | failed at_ => cases pc <;> cases at_ <;> cases hg
  | _ => cases hg

theorem exec_refines (ho : exec env t choice sh pc = some o) (hk : ∀ j ∈ pc.arcs, j ∈ sh.created)
    (hd : pc.group = some .dispatch → t = .dispatcher)
    (hc : pc.group ≠ some .complete → cause = .stopped) :
    Refines env t sh (pc.role cause) cause o := by
  by_cases hg : pc.group = some .complete
  · exact completion_refines ho hg
  obtain rfl := hc hg
  -- The named cases touch the ledger. The rest count bytes, change a phase or talk
  -- to the browser.
  cases exec_branch ho with
  | failed at_ => exact failed_refines at_
  | @inserted id request expires drawn fresh room =>
    refine .inr (.to (.insert (v := request.visitorId) (i := request.clientIp) fresh room) ?_)
    simp only [Shared.ledger, map_update SessionData.visitorId, map_update SessionData.clientIp,
      map_update SessionInner.flags, map_update (List.countP BrowserEvent.closesSocket)]
    rfl
  | created => exact .inr .count
  | unused free unused live =>
    exact .inr (.lock (hk _ (List.mem_singleton_self _)) free unused live)
  | queueTaken => exact .inr .lockQueue
  | denied => exact .inr .reject
  | admitted room visitor ip =>
    refine .inr (.to (.consume room visitor ip) ?_)
    simp only [Shared.ledger, Shared.setInner, Shared.setInnerLock, map_update SessionInner.flags]
    rfl
  | activated free consumed pending live =>
    exact .inr (.to (.activate (hk _ (List.mem_singleton_self _)) free pending live) ledger_setInner)
  | enqueued => exact .inr .enqueue
  | enqueueNotified | registerNotified | lossNotified => exact .inr .notify
  | stopWaiting free live unassigned =>
    exact .inr (.stop (hk _ (List.mem_singleton_self _)) live unassigned)
  | dequeued => exact .inr .unqueue
  | sent sent =>
    refine .inl ⟨ledger_setChannel_of_assigned ?_, rfl⟩
    rw [assignedJobs_trySend sent]
    simp [ApiMessage.assigned]
  | @registered r c capacity acceptable drawn fresh free =>
    refine .inr (.to (.register (w := r.workerId) fresh (by simp [Shared.ledger, free])) ?_)
    simp only [Shared.ledger, Shared.busy, Shared.setChannel, Shared.setWorker,
      busy_register (h := ⟨c, r.architecture, r.backend, none, none, sh.instant⟩) free rfl,
      workers_insert, map_update Channel.assignedJobs]
    rfl
  | beat worker => exact .inl ⟨ledger_setWorker_of_handle worker rfl, rfl⟩
  | accepted job worker connection current => exact connection ▸ accepted_refines job worker current
  | exitEvent => exact .inr .exit
  | lost worker => exact lost_refines worker
  | lostNoSession gone => exact .inr (.lostAlready (.inl gone))
  | nothingQueued free empty => exact .inr (.empty (hd rfl) empty)
  | popped free queue => exact .inr (.pop (hd rfl) queue)
  | dispatchGone gone => exact .inr (.drop (.inl gone))
  | dispatchFinished free finished => exact .inr (.drop (.inr finished))
  | dispatchTaken free live => exact .inr (.hold free live)
  | noWorker busy =>
    refine .inr (.block (busy.imp_right fun hall => ?_))
    rintro ⟨w, h, hw, idle⟩
    obtain ⟨h, hl, rfl⟩ := Option.map_eq_some_iff.mp hw
    have hbusy := List.all_eq_true.mp hall _ (AList.mem_lookup_iff.mp hl)
    simp_all [WorkerHandle.handle]
  | assigned room chosen worker idle sent =>
    exact .inr (.to (.assign room (ledger_workers worker) idle) (ledger_assign worker idle sent))
  | notAssigned => exact .inr .undeliverable
  | pushedBack => exact .inr .putBack
  | pushedLost => exact .inr .retry
  | permitTaken permit => exact .inr (.takePermit permit)
  | parked permit => exact .inr (.park permit)
  | woken woken => exact .inr (.wake woken)
  | stdin | phaseChanged | compilerCounted | compilerLimited | terminalCounted
  | terminalLimited => exact .inl ⟨ledger_setInner_of_flags rfl, rfl⟩
  | queueAnnounced | phaseSent | compilerSent | terminalSent | errorSent | lossSent =>
    exact .inl ⟨ledger_broadcast_open rfl, rfl⟩
  | completeAgain | finished | finalPhase | exitSent | unreserved | released | limitsReleased
  | workerKept | freed | completed | removed | completeNotified => exact absurd rfl hg
  | _ => exact .inl ⟨rfl, rfl⟩

/-! ### Runs -/

theorem Frame.cause_of_base (hb : Frame.base g frames = some b) (hg : g ≠ .complete) :
    Frame.cause frames.head? = .stopped := by
  cases frames with
  | nil => rfl
  | cons f frames =>
    cases f <;> first | rfl | simp [Frame.base, Frame.callee, hg.symm] at hb

theorem Frame.base_dispatch (hb : Frame.base .dispatch frames = some b) : b = .dispatch := by
  cases frames with
  | nil => simpa [Frame.base] using hb.symm
  | cons f frames => cases f <;> simp [Frame.base, Frame.callee] at hb

theorem Frame.resume_role (r : Ret) (f : Frame) :
    (f.resume r).role .stopped = (Frame.cause (some f)).after := by
  cases f <;> simp only [Frame.resume] <;> (try split) <;> rfl

theorem State.resume_overview {s : State} (h : Orderly s) (at_ : s.task t = ⟨.done r, f :: frames⟩) :
    (s.setTask t ⟨f.resume r, frames⟩).overview = s.overview := by
  have hrole : Task.role ⟨f.resume r, frames⟩ = (s.task t).role := by
    obtain ⟨g, b, -, hb, -⟩ := h.typed t
    rw [at_] at hb
    have hcause := Frame.cause_of_base (Frame.base_cons hb) (by cases f <;> simp [Frame.caller])
    simp only [Task.role, hcause, Frame.resume_role, at_]
    rfl
  simp only [State.overview, State.setTask, map_update Task.role, hrole, Function.update_eq_self]

theorem State.exec_overview {s : State} (h : Orderly s)
    (ho : exec env t choice s.shared (s.task t).pc = some o) :
    let s' : State := ⟨o.shared, update s.task t ⟨o.pc, o.frame.toList ++ (s.task t).frames⟩⟩
    s'.overview = s.overview ∨ Overview.Step env.config s.overview t s'.overview := by
  obtain ⟨g, b, hpc, hb, ht⟩ := h.typed t
  have hpc : (s.task t).pc.group = some g := hpc.resolve_left (exec_group ho)
  have hk : ∀ j ∈ (s.task t).pc.arcs, j ∈ s.shared.created := fun j hj =>
    h.arcs t j (List.mem_append_left _ hj)
  have hd : (s.task t).pc.group = some .dispatch → t = .dispatcher := fun hg => by
    obtain rfl : g = .dispatch := by simpa [hpc] using hg
    exact ht.mp (Frame.base_dispatch hb)
  have hc : (s.task t).pc.group ≠ some .complete →
      Frame.cause (s.task t).frames.head? = .stopped := fun hg =>
    Frame.cause_of_base hb fun hg' => hg (hg' ▸ hpc)
  have hrole : Task.role ⟨o.pc, o.frame.toList ++ (s.task t).frames⟩ =
      o.role (Frame.cause (s.task t).frames.head?) := by
    cases hf : o.frame <;> simp [Task.role, Outcome.role, hf]
  simp only [State.overview, map_update Task.role, hrole]
  rcases exec_refines ho hk hd hc with ⟨hl, hr⟩ | hm
  · left
    rw [hl, hr]
    exact congrArg _ (Function.update_eq_self _ _)
  · exact .inr ⟨_, hm, rfl⟩

theorem Outside.ledger {sh sh' : Shared} (h : Outside sh sh') : sh'.ledger = sh.ledger := by
  cases h with
  | tick | setClock => rfl
  | channel c ch sent =>
    exact ledger_setChannel_of_assigned (by simp [Channel.assignedJobs, sent])

theorem State.step_overview {s s' : State} (h : Orderly s) (hs : s.step env a = some s') :
    s'.overview = s.overview ∨
      ∃ t choice, a = .run t choice ∧ Overview.Step env.config s.overview t s'.overview := by
  cases State.step_cases hs with
  | start vacant known =>
    left
    rename_i n op
    have hrole : op.start.role = (s.task (.task n)).role := by
      rw [Task.role, Task.role, vacant]
      cases op <;> rfl
    simp only [State.overview, State.setTask, map_update Task.role, hrole,
      Function.update_eq_self]
  | resume at_ => exact .inl (State.resume_overview h at_)
  | exec he => exact (State.exec_overview h he).imp_right fun hm => ⟨_, _, rfl, hm⟩
  | outside ho => exact .inl (by simp only [State.overview, ho.ledger])

/-- Every run of the step model is a run of the ledger. The condition on the
steps may be translated along the way. -/
theorem reachable_overview {C : State → Action → Prop} {D : Overview → Tid → Prop}
    (hCD : ∀ s t choice, C s (.run t choice) → D s.overview t)
    (h : ReachableWhen (system env) C s) :
    ReachableWhen (ledgerSystem env.config) D s.overview := by
  refine h.simulate State.overview ?_ fun hr hc hs => ?_
  · exact congrArg (Overview.mk _) (funext fun t => by cases t <;> rfl)
  · rcases State.step_overview (Reachable.orderly hr.reachable) hs with heq | ⟨t, choice, rfl, hm⟩
    · exact .inl heq
    · exact .inr ⟨t, hCD _ _ _ hc, hm⟩

theorem Reachable.overview (h : Reachable env s) :
    Transition.Reachable (ledgerSystem env.config) s.overview :=
  reachable_overview (fun _ _ _ _ => trivial) h

theorem Pc.completing_iff {pc : Pc} : pc.role cause = .completing j stage ↔
    stage ≠ .finish ∧ ∃ e, pc = .completeSession j e stage := by
  cases pc
  case completeSession k e stage' => cases stage' <;> simp [Pc.role] <;> grind
  case done => cases cause <;> simp [Pc.role, Cause.after]
  case unregisterWorkerCount job _ => cases job <;> simp [Pc.role]
  case handleWorkerEventSession k payload =>
    rcases payload with _ | _ | _ | _ | _ | _ <;> simp [Pc.role]
  all_goals simp [Pc.role]

/-! ### Quiet states -/

/-- The task is outside every operation of `AppState`: it has not started or has
ended, it is the dispatcher between two attempts, or it is the code around a
socket or a worker's stream. -/
def Task.resting (task : Task) : Bool :=
  match task.pc with
  | .vacant | .dispatchAwait | .dispatchParked | .executionWebsocket .. | .websocketSession _
  | .websocketHello _ | .websocketSnapshot _ | .websocketSendSnapshot .. | .websocketRefused _
  | .websocketSelect _ | .websocketSendError .. | .websocketClose .. | .processWorkerStream .. => true
  | .done _ => task.frames.isEmpty
  | _ => false

def State.Quiet (s : State) : Prop := ∀ t, (s.task t).resting = true

theorem Task.role_of_resting {task : Task} (h : task.resting = true) :
    task.role = .idle ∨ task.role = .awaiting ∨ task.role = .parked := by
  obtain ⟨pc, frames⟩ := task
  cases pc <;> simp only [Task.resting, Bool.false_eq_true] at h
  case done =>
    obtain rfl := List.isEmpty_iff.mp h
    exact .inl rfl
  case dispatchAwait => exact .inr (.inl rfl)
  case dispatchParked => exact .inr (.inr rfl)
  all_goals exact .inl rfl

theorem State.Quiet.role {s : State} (h : s.Quiet) (t : Tid) :
    s.overview.role t = .idle ∨ s.overview.role t = .awaiting ∨ s.overview.role t = .parked :=
  Task.role_of_resting (h t)

end SmartC.Executor
