import SmartC.Executor.Lifecycle
import SmartC.Transition

/-!
# The step model of executor-api

Any number of tasks run the operations, one dispatcher runs beside them, and
time passes. `system env` interleaves their steps in every order that the
locks allow.
-/

namespace SmartC.Executor

open Transition (System)

def exec (env : Env) (t : Tid) (choice : Choice) (sh : Shared) : Pc → Option Outcome
  | .vacant | .done _ => none
  | .createExecution request => createExecution env sh request
  | .createExecutionInsert request expires => createExecutionInsert env choice sh request expires
  | .createExecutionCount id => createExecutionCount sh id
  | .consumeTicket j ticket => consumeTicket env sh j ticket
  | .consumeTicketInner j => consumeTicketInner t sh j
  | .consumeTicketQueue j => consumeTicketQueue t sh j
  | .consumeTicketLimits j => consumeTicketLimits env sh j
  | .activateSession j => activateSession sh j
  | .activateSessionQueue j => activateSessionQueue t sh j
  | .activateSessionLimits j => activateSessionLimits sh j
  | .activateSessionSend j position => activateSessionSend sh j position
  | .activateSessionNotify position => activateSessionNotify sh position
  | .sendStdin j data => sendStdin sh j data
  | .resize j cols rows => resize sh j cols rows
  | .stop kind j => stop sh kind j
  | .stopQueue kind j => stopQueue sh kind j
  | .sendCommand j action => sendCommand sh j action
  | .sendCommandWorker j action w => sendCommandWorker sh j action w
  | .sendCommandSend j action w c => sendCommandSend sh j action w c
  | .registerWorker r capacity => registerWorker env choice sh r capacity
  | .registerWorkerNotify c => registerWorkerNotify sh c
  | .heartbeat w c reported => heartbeat sh w c reported
  | .handleWorkerEvent c e => handleWorkerEvent sh c e
  | .handleWorkerEventSession j payload => handleWorkerEventSession sh j payload
  | .applyPhase j phase => applyPhase sh j phase
  | .applyPhaseSend j phase => applyPhaseSend sh j phase
  | .applyCompilerOutput j stream data => applyCompilerOutput sh j stream data
  | .applyCompilerOutputCount j stream data => applyCompilerOutputCount sh j stream data
  | .applyCompilerOutputSend j stream data => applyCompilerOutputSend env sh j stream data
  | .applyTerminalOutput j data => applyTerminalOutput sh j data
  | .applyTerminalOutputCount j data => applyTerminalOutputCount sh j data
  | .applyTerminalOutputSend j data => applyTerminalOutputSend sh j data
  | .applyError j code message retryable => applyError sh j code message retryable
  | .completeSession j e stage => completeSession sh j e stage
  | .unregisterWorker w c detail => unregisterWorker sh w c detail
  | .unregisterWorkerCount job detail => unregisterWorkerCount sh job detail
  | .unregisterWorkerSession j detail => unregisterWorkerSession sh j detail
  | .unregisterWorkerSend j detail => unregisterWorkerSend sh j detail
  | .unregisterWorkerNotify => unregisterWorkerNotify sh
  | .dispatchPop => dispatchPop sh
  | .dispatchSession j => dispatchSession sh j
  | .dispatchInner j => dispatchInner t sh j
  | .dispatchWorkers j => dispatchWorkers env choice sh j
  | .dispatchPushFront j failed => dispatchPushFront sh j failed
  | .dispatchAwait => dispatchAwait sh
  | .dispatchParked => dispatchParked sh
  | .maintenanceOnce => maintenanceOnce env choice sh
  | .maintenanceWorkers stale => maintenanceWorkers sh stale
  | .maintenanceNow => maintenanceNow choice sh
  | .maintenanceSessions now js => maintenanceSessions sh now js
  | .executionWebsocket j ticket => executionWebsocket sh j ticket
  | .websocketSession j => websocketSession sh j
  | .websocketHello s => websocketHello choice sh s
  | .websocketSnapshot s => websocketSnapshot sh s
  | .websocketSendSnapshot s _ => websocketSendSnapshot choice sh s
  | .websocketRefused j => websocketRefused sh j
  | .websocketSelect s => websocketSelect choice sh s
  | .websocketSendError s _ => websocketSendError choice sh s
  | .websocketClose j terminalActionSent => websocketClose sh j terminalActionSent
  | .processWorkerStream w c => processWorkerStream choice sh w c

/-! ### Calls from outside -/

/-- The operations that other parts of the program start. `work` is the gRPC
handler, which registers the worker with a channel of 64 commands and then
reads its stream. -/
inductive Op
  | createExecution (request : CreateExecutionRequest)
  | consumeTicket (j : Uuid) (ticket : String)
  | activateSession (j : Uuid)
  | sendStdin (j : Uuid) (data : Bytes)
  | resize (j : Uuid) (cols rows : UInt16)
  | cancelExecution (j : Uuid) (reason : String)
  | resourceLimitExecution (j : Uuid) (reason : String)
  | registerWorker (r : WorkerRegistration) (capacity : Nat)
  | heartbeat (w : String) (c : Uuid) (reported : Option JobIdText)
  | handleWorkerEvent (c : Uuid) (e : JobEvent)
  | unregisterWorker (w : String) (c : Uuid) (detail : String)
  | maintenanceOnce
  | executionWebsocket (j : Uuid) (ticket : String)
  | websocketSession (j : Uuid)
  | work (r : WorkerRegistration)

def Op.start : Op → Task
  | .createExecution request => ⟨.createExecution request, []⟩
  | .consumeTicket j ticket => ⟨.consumeTicket j ticket, []⟩
  | .activateSession j => ⟨.activateSession j, []⟩
  | .sendStdin j data => ⟨.sendStdin j data, []⟩
  | .resize j cols rows => ⟨.resize j cols rows, []⟩
  | .cancelExecution j reason => ⟨.cancelExecution j reason, []⟩
  | .resourceLimitExecution j reason => ⟨.resourceLimitExecution j reason, []⟩
  | .registerWorker r capacity => ⟨.registerWorker r capacity, []⟩
  | .heartbeat w c reported => ⟨.heartbeat w c reported, []⟩
  | .handleWorkerEvent c e => ⟨.handleWorkerEvent c e, []⟩
  | .unregisterWorker w c detail => ⟨.unregisterWorker w c detail, []⟩
  | .maintenanceOnce => ⟨.maintenanceOnce, []⟩
  | .executionWebsocket j ticket => ⟨.executionWebsocket j ticket, []⟩
  | .websocketSession j => ⟨.websocketSession j, []⟩
  | .work r => ⟨.registerWorker r 64, [.workRegistered r.workerId]⟩

/-- The `Arc<Session>` an operation is called with. -/
def Op.session : Op → Option Uuid
  | .consumeTicket j _ | .activateSession j | .sendStdin j _ | .resize j _ _
  | .cancelExecution j _ | .resourceLimitExecution j _ | .websocketSession j => some j
  | _ => none

/-! ### The system -/

structure State where
  shared : Shared
  task : Tid → Task

/-- The dispatcher is the only task that has started. -/
def State.new : State where
  shared := .new
  task
    | .dispatcher => ⟨.dispatchPop, []⟩
    | .task _ => .vacant

inductive Action
  | start (n : Nat) (op : Op)
  | run (t : Tid) (choice : Choice)
  | tick (nanoseconds : Nat)
  | setClock (unix : Nat)
  | take (c : Uuid)
  | hangUp (c : Uuid)

def State.setTask (s : State) (t : Tid) (task : Task) : State :=
  { s with task := Function.update s.task t task }

/-- One step of task `t`: return to the caller, or go on in the operation. -/
def State.run (env : Env) (s : State) (t : Tid) (choice : Choice) : Option State :=
  match (s.task t).pc, (s.task t).frames with
  | .done r, f :: frames => some (s.setTask t ⟨f.resume r, frames⟩)
  | pc, frames =>
    (exec env t choice s.shared pc).map fun o =>
      { shared := o.shared
        task := Function.update s.task t ⟨o.pc, o.frame.toList ++ frames⟩ }

/-- A task that has not run yet starts an operation on a session that exists. -/
def State.start (s : State) (n : Nat) (op : Op) : Option State :=
  match (s.task (.task n)).pc with
  | .vacant =>
    if op.session.all (· ∈ s.shared.created) then some (s.setTask (.task n) op.start) else none
  | _ => none

/-- The transport takes the oldest command out of a channel, or drops it. -/
def Channel.take (ch : Channel) : Option Channel :=
  if ch.taken < ch.sent.length then some { ch with taken := ch.taken + 1 } else none

def State.step (env : Env) (s : State) : Action → Option State
  | .start n op => s.start n op
  | .run t choice => s.run env t choice
  | .tick d => some { s with shared := { s.shared with instant := s.shared.instant + d } }
  | .setClock unix => some { s with shared := { s.shared with unixNow := unix } }
  | .take c =>
    (s.shared.channel c).take.map fun ch => { s with shared := s.shared.setChannel c ch }
  | .hangUp c =>
    some { s with shared := s.shared.setChannel c { s.shared.channel c with closed := true } }

/-! ### Inversion -/

/-- What happens to the shared state outside the tasks: time passes, or the
transport takes commands out of a channel or closes it. -/
inductive Outside (sh : Shared) : Shared → Prop
  | tick (d : Nat) : Outside sh { sh with instant := sh.instant + d }
  | setClock (unix : Nat) : Outside sh { sh with unixNow := unix }
  | channel (c : Uuid) (ch : Channel) (sent : ch.sent = (sh.channel c).sent) :
      Outside sh (sh.setChannel c ch)

inductive StepCase (env : Env) (s : State) : Action → State → Prop
  | start {n op} (vacant : (s.task (.task n)).pc = .vacant)
      (known : ∀ j ∈ op.session, j ∈ s.shared.created) :
      StepCase env s (.start n op) (s.setTask (.task n) op.start)
  | resume {t choice r f frames} (at_ : s.task t = ⟨.done r, f :: frames⟩) :
      StepCase env s (.run t choice) (s.setTask t ⟨f.resume r, frames⟩)
  | exec {t choice o} (h : exec env t choice s.shared (s.task t).pc = some o) :
      StepCase env s (.run t choice)
        ⟨o.shared, Function.update s.task t ⟨o.pc, o.frame.toList ++ (s.task t).frames⟩⟩
  | outside {a sh} (h : Outside s.shared sh) : StepCase env s a { s with shared := sh }

theorem Channel.take_sent {ch ch' : Channel} (h : ch.take = some ch') : ch'.sent = ch.sent := by
  simp only [Channel.take] at h
  split at h <;> cases h
  rfl

theorem State.start_case (h : s.start n op = some s') : StepCase env s (.start n op) s' := by
  simp only [State.start] at h
  split at h
  · rename_i hv
    split at h <;> cases h
    rename_i hk
    exact .start hv fun j hj => by simpa [Option.mem_def.mp hj] using hk
  · cases h

theorem State.run_cases {s s' : State} (h : s.run env t choice = some s') :
    (∃ r f frames, s.task t = ⟨.done r, f :: frames⟩ ∧ s' = s.setTask t ⟨f.resume r, frames⟩) ∨
      ∃ o, SmartC.Executor.exec env t choice s.shared (s.task t).pc = some o ∧
        s' = ⟨o.shared, Function.update s.task t ⟨o.pc, o.frame.toList ++ (s.task t).frames⟩⟩ := by
  simp only [State.run] at h
  split at h
  · rename_i r f frames hpc hframes
    cases h
    exact .inl ⟨r, f, frames, by cases ht : s.task t; simp_all, rfl⟩
  · obtain ⟨o, ho, rfl⟩ := Option.map_eq_some_iff.mp h
    exact .inr ⟨o, ho, rfl⟩

theorem State.run_of_exec {s : State} {o : Outcome}
    (h : exec env t choice s.shared (s.task t).pc = some o) : s.run env t choice =
      some ⟨o.shared, Function.update s.task t ⟨o.pc, o.frame.toList ++ (s.task t).frames⟩⟩ := by
  simp only [State.run]
  split
  · next r f frames hpc _ =>
    rw [hpc] at h
    cases h
  · rw [h, Option.map_some]

theorem State.run_case (h : s.run env t choice = some s') :
    StepCase env s (.run t choice) s' := by
  rcases State.run_cases h with ⟨r, f, frames, at_, rfl⟩ | ⟨o, ho, rfl⟩
  · exact .resume at_
  · exact .exec ho

theorem State.step_cases (h : s.step env a = some s') : StepCase env s a s' := by
  cases a with
  | start n op => exact State.start_case h
  | run t choice => exact State.run_case h
  | tick d => cases h; exact .outside (.tick d)
  | setClock unix => cases h; exact .outside (.setClock unix)
  | take c =>
    obtain ⟨ch, hch, rfl⟩ := Option.map_eq_some_iff.mp h
    exact .outside (.channel c ch (Channel.take_sent hch))
  | hangUp c => cases h; exact .outside (.channel c _ rfl)

/-! ### Reachable states -/

def system (env : Env) : System State Action := .ofStep .new (State.step env)

abbrev Reachable (env : Env) : State → Prop := Transition.Reachable (system env)

/-! ### Schedules -/

namespace Schedule

/-- `k` steps of task `n` in which nothing is left open. -/
def go (n k : Nat) : List Action := List.replicate k (.run (.task n) .go)

def dispatch (k : Nat) : List Action := List.replicate k (.run .dispatcher .go)

def create (n : Nat) (id : Uuid) (visitor ip : String) : List Action :=
  .start n (.createExecution ⟨[⟨"main.c", "int main(void)\x7b\x7d"⟩], ⟨80, 24⟩, visitor, ip⟩) ::
    go n 1 ++ .run (.task n) (.fresh id) :: go n 1

def consume (n : Nat) (j : Uuid) : List Action := .start n (.consumeTicket j "ticket") :: go n 4

def activate (n : Nat) (j : Uuid) : List Action := .start n (.activateSession j) :: go n 5

/-- The sessions of `js` created, admitted and activated one after the other, each
for a visitor and an address of its own; tasks are numbered from `n`. -/
def submit (n : Nat) : List Uuid → List Action
  | [] => []
  | j :: js =>
    create n j (toString j) (toString j) ++ consume (n + 1) j ++ activate (n + 2) j ++
      submit (n + 3) js

def register (n : Nat) (w : String) (c : Uuid) : List Action :=
  .start n (.work ⟨w, "x86_64", "nsjail"⟩) :: .run (.task n) (.fresh c) :: go n 2

def assign (w : String) : List Action := dispatch 3 ++ [.run .dispatcher (.candidate w)]

def phase (n : Nat) (w : String) (j : Uuid) (phase : Int) : List Action :=
  .run (.task n) (.inbound (some (.event ⟨w, .canonical j, some (.phase phase)⟩))) :: go n 5

def exit (n : Nat) (w : String) (j : Uuid) : List Action :=
  .run (.task n) (.inbound (some (.event ⟨w, .canonical j, some (.exit (some 0) none 1)⟩))) ::
    go n 13

end Schedule

end SmartC.Executor
