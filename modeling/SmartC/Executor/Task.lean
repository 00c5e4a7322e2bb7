import SmartC.Executor.RateLimiter
import SmartC.Executor.State

/-!
# Tasks and where they stand

An operation of executor-api runs as a task that is interrupted at every lock
acquisition, event send and message. `Pc` names the point before the next such
step, with the local variables that are still needed; a constructor carries
the name of the function it lies in. Calls between operations push a `Frame`,
which says where the caller goes on.
-/

namespace SmartC.Executor

inductive Ret
  | unit
  | created (id : Uuid)
  | position (n : Nat)
  | connection (id : Uuid)
  | apiError (e : ApiError)
  | status (s : Status)
  | websocket (j : Uuid) (activated : Bool)
  deriving DecidableEq, Repr

def Ret.isOk : Ret → Bool
  | .apiError _ | .status _ => false
  | _ => true

/-- `cancel_execution` and `resource_limit_execution` differ only in how they
name the end of the session and in the reason they send to the worker. -/
inductive StopKind
  | cancel (reason : String)
  | resourceLimit (reason : String)
  deriving DecidableEq, Repr

namespace StopKind

def phase : StopKind → ExecutionPhase
  | .cancel _ => .cancelled
  | .resourceLimit _ => .resourceLimited

def exitReason : StopKind → ExitReason
  | .cancel _ => .cancelled
  | .resourceLimit _ => .resourceLimited

def commandReason : StopKind → String
  | .cancel reason => reason
  | .resourceLimit reason => "resource_limit:" ++ reason

end StopKind

structure Completion where
  phase : ExecutionPhase
  code : Option Int
  signal : Option Int
  reason : ExitReason
  deriving DecidableEq, Repr

/-- The points of `complete_session`, `release_limits` included. After `finish`
they carry the worker that was taken out of `assigned_worker`. -/
inductive CompleteAt
  | finish
  | sendPhase (worker : Option String)
  | sendExit (worker : Option String)
  | releaseInner (worker : Option String)
  | releaseLimits (worker : Option String) (wasPending : Bool)
  | freeWorker (worker : Option String)
  | count
  | remove
  | notify
  deriving DecidableEq, Repr

/-- The local variables of `websocket_session`: the session, the position of
its event receiver and its rate limiter. -/
structure Socket where
  session : Uuid
  position : Nat
  limiter : ClientMessageRateLimiter

inductive Pc
  | vacant
  | done (r : Ret)
  | createExecution (request : CreateExecutionRequest)
  | createExecutionInsert (request : CreateExecutionRequest) (expiresUnix : Nat)
  | createExecutionCount (id : Uuid)
  | consumeTicket (j : Uuid) (ticket : String)
  | consumeTicketInner (j : Uuid)
  | consumeTicketQueue (j : Uuid)
  | consumeTicketLimits (j : Uuid)
  | activateSession (j : Uuid)
  | activateSessionQueue (j : Uuid)
  | activateSessionLimits (j : Uuid)
  | activateSessionSend (j : Uuid) (position : Nat)
  | activateSessionNotify (position : Nat)
  | sendStdin (j : Uuid) (data : Bytes)
  | resize (j : Uuid) (cols rows : UInt16)
  | stop (kind : StopKind) (j : Uuid)
  | stopQueue (kind : StopKind) (j : Uuid)
  | sendCommand (j : Uuid) (action : CommandAction)
  | sendCommandWorker (j : Uuid) (action : CommandAction) (w : String)
  | sendCommandSend (j : Uuid) (action : CommandAction) (w : String) (c : Uuid)
  | registerWorker (r : WorkerRegistration) (capacity : Nat)
  | registerWorkerNotify (c : Uuid)
  | heartbeat (w : String) (c : Uuid) (reported : Option JobIdText)
  | handleWorkerEvent (c : Uuid) (e : JobEvent)
  | handleWorkerEventSession (j : Uuid) (payload : Option EventPayload)
  | applyPhase (j : Uuid) (phase : Int)
  | applyPhaseSend (j : Uuid) (phase : ExecutionPhase)
  | applyCompilerOutput (j : Uuid) (stream : Int) (data : Bytes)
  | applyCompilerOutputCount (j : Uuid) (stream : Int) (data : Bytes)
  | applyCompilerOutputSend (j : Uuid) (stream : OutputStream) (data : Bytes)
  | applyTerminalOutput (j : Uuid) (data : Bytes)
  | applyTerminalOutputCount (j : Uuid) (data : Bytes)
  | applyTerminalOutputSend (j : Uuid) (data : Bytes)
  | applyError (j : Uuid) (code message : String) (retryable : Bool)
  | completeSession (j : Uuid) (e : Completion) (stage : CompleteAt)
  | unregisterWorker (w : String) (c : Uuid) (detail : String)
  | unregisterWorkerCount (job : Option Uuid) (detail : String)
  | unregisterWorkerSession (j : Uuid) (detail : String)
  | unregisterWorkerSend (j : Uuid) (detail : String)
  | unregisterWorkerNotify
  | dispatchPop
  | dispatchSession (j : Uuid)
  | dispatchInner (j : Uuid)
  | dispatchWorkers (j : Uuid)
  | dispatchPushFront (j : Uuid) (failed : Option (String × Uuid))
  | dispatchAwait
  | dispatchParked
  | maintenanceOnce
  | maintenanceWorkers (stale : List (String × Uuid))
  | maintenanceNow
  | maintenanceSessions (now : Nat) (js : List Uuid)
  | executionWebsocket (j : Uuid) (ticket : String)
  | websocketSession (j : Uuid)
  | websocketHello (s : Socket)
  | websocketSnapshot (s : Socket)
  | websocketSendSnapshot (s : Socket) (phase : ExecutionPhase)
  | websocketRefused (j : Uuid)
  | websocketSelect (s : Socket)
  | websocketSendError (s : Socket) (e : ApiError)
  | websocketClose (j : Uuid) (terminalActionSent : Bool)
  | processWorkerStream (w : String) (c : Uuid)

def Pc.cancelExecution (j : Uuid) (reason : String) : Pc := .stop (.cancel reason) j

def Pc.resourceLimitExecution (j : Uuid) (reason : String) : Pc := .stop (.resourceLimit reason) j

inductive Frame
  | stopped
  | exitApplied
  | outputLimited (message : String)
  | sendCommandClosed
  | unregisterWorkerNotify
  | dispatchLoop
  | maintenanceWorkers (stale : List (String × Uuid))
  | maintenanceSessions (now : Nat) (js : List Uuid)
  | workRegistered (w : String)
  | processWorkerStream (w : String) (c : Uuid)
  | executionWebsocket (j : Uuid)
  | websocketActivated (s : Socket)
  | websocketHandled (s : Socket)
  | websocketRateLimited (j : Uuid)
  | websocketBreak (j : Uuid)
  | websocketReturn (j : Uuid) (activated : Bool)

def workerUnavailable : ApiError := .unavailable "worker_unavailable" "実行Workerへ接続できません"

/-- Where the caller goes on when the callee has returned `r`. -/
def Frame.resume (r : Ret) : Frame → Pc
  | .stopped => .done .unit
  | .exitApplied => .done .unit
  | .outputLimited message => .done (.status ⟨.resourceExhausted, message⟩)
  | .sendCommandClosed => .done (.apiError workerUnavailable)
  | .unregisterWorkerNotify => .unregisterWorkerNotify
  | .dispatchLoop => .dispatchPop
  | .maintenanceWorkers stale => .maintenanceWorkers stale
  | .maintenanceSessions now js => .maintenanceSessions now js
  | .workRegistered w =>
    match r with
    | .connection c => .processWorkerStream w c
    | _ => .done r
  | .processWorkerStream w c =>
    match r with
    | .status ⟨.permissionDenied, _⟩ | .status ⟨.failedPrecondition, _⟩ =>
      .unregisterWorker w c "実行WorkerとのgRPC接続が切断されました"
    | _ => .processWorkerStream w c
  | .executionWebsocket j => if r.isOk then .websocketSession j else .done r
  | .websocketActivated s =>
    if r.isOk then .websocketSelect s else .websocketRefused s.session
  | .websocketHandled s =>
    match r with
    | .apiError e => .websocketSendError s e
    | _ => .websocketSelect s
  | .websocketRateLimited j => .websocketClose j r.isOk
  | .websocketBreak j => .websocketClose j false
  | .websocketReturn j activated => .done (.websocket j activated)

structure Task where
  pc : Pc
  frames : List Frame

def Task.vacant : Task := ⟨.vacant, []⟩

def Pc.report : Pc → Option (String × Uuid × Option JobIdText)
  | .heartbeat w c reported => some (w, c, reported)
  | _ => none

def Task.refusal : Task → Option (Status × String × Uuid)
  | ⟨.done (.status status), [.processWorkerStream w c]⟩ => some (status, w, c)
  | _ => none

/-- Everything a step leaves open: the id that `Uuid::new_v4` draws, the order
in which a hash map is traversed, the message that arrives next, and whether a
write to the browser succeeds. -/
inductive Choice
  | go
  | fresh (id : Uuid)
  | candidate (w : String)
  | stale (ws : List (String × Uuid))
  | order (js : List Uuid)
  | inbound (m : Option WorkerMessage)
  | event (written : Bool)
  | incoming (m : Option ClientMessage) (written : Bool)

/-- The choices that say a write to the browser failed. -/
def Choice.writeFailed : Choice → Bool
  | .event written | .incoming _ written => !written
  | _ => false

end SmartC.Executor
