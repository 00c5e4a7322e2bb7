import SmartC.Counting
import SmartC.Executor.Model

/-!
# The shared state of executor-api

`AppState` of `state.rs` with everything that its tasks share. An
`Arc<Session>` outlives its entry in the `sessions` map, so the sessions
themselves live in a heap addressed by id (`data`, `inner`, `events`) and
`sessions` holds the ids that the map still has. A worker's command channel is
addressed by the connection id it was registered with.

Three fields record history and are never read by an operation: `created`
(the ids handed out), `connections` (the connection ids handed out) and
`accepted` (the worker events that passed the checks of `handle_worker_event`).
-/

namespace SmartC.Executor

/-! ### Configuration -/

/-- The settings that the modelled operations read. Durations are in
nanoseconds, except `ticketTtl`, which the code uses in whole seconds. -/
structure AppConfig where
  ticketTtl : Nat
  queueCapacity : Nat
  sessionCapacity : Nat
  globalConcurrency : Nat
  visitorConcurrency : Nat
  ipConcurrency : Nat
  workerStaleAfter : Nat
  requireNsjailWorkers : Bool
  deriving Repr

def seconds (n : Nat) : Nat := n * 1000000000

/-- `AppConfig::for_test`, whose limits are the defaults of `from_env`. -/
def AppConfig.forTest : AppConfig where
  ticketTtl := 30
  queueCapacity := 16
  sessionCapacity := 32
  globalConcurrency := 4
  visitorConcurrency := 1
  ipConcurrency := 2
  workerStaleAfter := seconds 15
  requireNsjailWorkers := false

inductive TicketError
  | malformed | expired | invalid
  deriving DecidableEq, Repr

def TicketError.text : TicketError → String
  | .malformed => "チケット形式が不正です"
  | .expired => "チケットの有効期限が切れています"
  | .invalid => "チケットの署名が正しくありません"

/-- The configuration together with the two library functions whose results
the operations pass on: the check of a ticket's MAC for a session, visitor and
current second, and the lossy decoding of compiler output. -/
structure Env where
  config : AppConfig
  verify : String → Uuid → String → Nat → Except TicketError Unit
  fromUtf8Lossy : Bytes → String

/-- One fixed ticket text is the valid one, and compiler output is not shown. -/
def Env.forTest : Env where
  config := .forTest
  verify ticket _ _ _ := if ticket = "ticket" then .ok () else .error .invalid
  fromUtf8Lossy _ := ""

/-! ### Sessions -/

structure SessionData where
  files : List SourceFile
  visitorId : String
  clientIp : String
  terminal : TerminalSize
  ticketExpiresUnix : Nat
  deriving DecidableEq, Repr

structure SessionInner where
  phase : ExecutionPhase
  assignedWorker : Option String
  ticketConsumed : Bool
  socketConnected : Bool
  pendingActivation : Bool
  limitsReserved : Bool
  finished : Bool
  limitsReleased : Bool
  stdinBytes : Nat
  compilerOutputBytes : Nat
  terminalOutputBytes : Nat
  deriving DecidableEq, Repr

def SessionInner.new : SessionInner where
  phase := .queued
  assignedWorker := none
  ticketConsumed := false
  socketConnected := false
  pendingActivation := false
  limitsReserved := false
  finished := false
  limitsReleased := false
  stdinBytes := 0
  compilerOutputBytes := 0
  terminalOutputBytes := 0

/-! ### Workers and their command channels -/

structure WorkerHandle where
  connectionId : Uuid
  architecture : String
  backend : String
  currentJob : Option Uuid
  recentlyCompletedJob : Option (Uuid × Nat)
  lastSeen : Nat
  deriving DecidableEq, Repr

abbrev Workers := AList fun _ : String => WorkerHandle

/-- A bounded `mpsc` channel: every message it ever accepted, how many of them
the receiver has taken out, and whether the receiver is gone. -/
structure Channel where
  capacity : Nat
  sent : List ApiMessage
  taken : Nat
  closed : Bool
  deriving DecidableEq, Repr

inductive TrySendError
  | full | closed
  deriving DecidableEq, Repr

def Channel.trySend (ch : Channel) (m : ApiMessage) : Except TrySendError Channel :=
  if ch.closed then .error .closed
  else if ch.capacity ≤ ch.sent.length - ch.taken then .error .full
  else .ok { ch with sent := ch.sent ++ [m] }

def Channel.assignedJobs (ch : Channel) : List Uuid := ch.sent.filterMap ApiMessage.assigned

/-! ### Limits, metrics and the dispatcher's `Notify` -/

structure LimitState where
  byVisitor : String → Option Nat
  byIp : String → Option Nat
  pendingActivations : Nat

def increment (map : String → Option Nat) (key : String) : String → Option Nat :=
  Function.update map key (some ((map key).getD 0 + 1))

def decrement (map : String → Option Nat) (key : String) : String → Option Nat :=
  match map key with
  | none => map
  | some value => Function.update map key (if value - 1 = 0 then none else some (value - 1))

structure Metrics where
  createdTotal : Nat
  completedTotal : Nat
  rejectedTotal : Nat
  compilerOutputBytes : Nat
  terminalOutputBytes : Nat
  workerDisconnectsTotal : Nat
  deriving DecidableEq, Repr

/-- The one task that ever waits on `dispatch_notify`, as `Notify` sees it. -/
inductive Waiter
  | absent | waiting | notified
  deriving DecidableEq, Repr

structure Notify where
  permit : Bool
  waiter : Waiter
  deriving DecidableEq, Repr

/-- Wake the waiter, or store one permit when nobody waits. -/
def Notify.notifyOne (n : Notify) : Notify :=
  match n.waiter with
  | .waiting => { n with waiter := .notified }
  | .absent | .notified => { n with permit := true }

/-! ### The shared state -/

inductive Tid
  | dispatcher
  | task (n : Nat)
  deriving DecidableEq, Repr

/-- `innerLock` and `queueLock` name the task that keeps the lock from one step
to the next. A lock that is taken and dropped within a step is only tested. -/
structure Shared where
  instant : Nat
  unixNow : Nat
  data : Uuid → SessionData
  inner : Uuid → SessionInner
  events : Uuid → List BrowserEvent
  created : Finset Uuid
  sessions : Finset Uuid
  queue : List Uuid
  workers : Workers
  channel : Uuid → Channel
  connections : Finset Uuid
  accepted : Uuid → List JobEvent
  limits : LimitState
  notify : Notify
  metrics : Metrics
  innerLock : Uuid → Option Tid
  queueLock : Option Tid

/-- `AppState::new`. -/
def Shared.new : Shared where
  instant := 0
  unixNow := 0
  data _ := ⟨[], "", "", ⟨0, 0⟩, 0⟩
  inner _ := .new
  events _ := []
  created := ∅
  sessions := ∅
  queue := []
  workers := ∅
  channel _ := ⟨0, [], 0, false⟩
  connections := ∅
  accepted _ := []
  limits := ⟨fun _ => none, fun _ => none, 0⟩
  notify := ⟨false, .absent⟩
  metrics := ⟨0, 0, 0, 0, 0, 0⟩
  innerLock _ := none
  queueLock := none

namespace Shared

def setInner (sh : Shared) (j : Uuid) (i : SessionInner) : Shared :=
  { sh with inner := Function.update sh.inner j i }

def setWorker (sh : Shared) (w : String) (h : WorkerHandle) : Shared :=
  { sh with workers := sh.workers.insert w h }

def setChannel (sh : Shared) (c : Uuid) (ch : Channel) : Shared :=
  { sh with channel := Function.update sh.channel c ch }

def setInnerLock (sh : Shared) (j : Uuid) (owner : Option Tid) : Shared :=
  { sh with innerLock := Function.update sh.innerLock j owner }

/-- `session.events.send(..)`; the result is ignored everywhere. -/
def broadcast (sh : Shared) (j : Uuid) (e : BrowserEvent) : Shared :=
  { sh with events := Function.update sh.events j (sh.events j ++ [e]) }

def notifyOne (sh : Shared) : Shared := { sh with notify := sh.notify.notifyOne }

def countRejected (sh : Shared) : Shared :=
  { sh with metrics := { sh.metrics with rejectedTotal := sh.metrics.rejectedTotal + 1 } }

def busy (sh : Shared) : Nat := sh.workers.countValues (·.currentJob.isSome)

def assignment (sh : Shared) (j : Uuid) : JobAssignment where
  jobId := j
  terminalCols := (sh.data j).terminal.cols.toUInt32
  terminalRows := (sh.data j).terminal.rows.toUInt32
  files := (sh.data j).files.map fun f => ⟨f.name, utf8 f.content⟩

end Shared

end SmartC.Executor
