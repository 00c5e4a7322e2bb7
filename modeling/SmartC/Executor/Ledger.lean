import SmartC.Executor.Task
import SmartC.Transition

/-!
# The ledger: what executor-api's tasks do to its jobs

The abstract model. A `Ledger` keeps of the shared state what decides where a
job is: the flags of its session, the queue, the current job of every worker,
the assignments sent on every connection, the limit counters and the totals.
A task is reduced to its `Role`, the obligation it carries towards one job.
`Move` lists everything a task can do to the ledger; texts, times, the
messages to the browser and the control flow between two moves are gone.
-/

namespace SmartC.Executor

open Function (update)
open Transition (System)

/-! ### The ledger -/

structure Flags where
  assignedWorker : Option String
  ticketConsumed : Bool
  socketConnected : Bool
  pendingActivation : Bool
  limitsReserved : Bool
  finished : Bool
  limitsReleased : Bool
  deriving DecidableEq, Repr

def Flags.new : Flags := ⟨none, false, false, false, false, false, false⟩

structure Handle where
  connectionId : Uuid
  currentJob : Option Uuid
  deriving DecidableEq, Repr

/-- `locked` names the task that holds `session.inner` across steps, `exits`
counts the exit messages broadcast for a session, `assigned` lists the jobs
sent on a connection. -/
@[ext]
structure Ledger where
  created : Finset Uuid
  sessions : Finset Uuid
  visitor : Uuid → String
  ip : Uuid → String
  flags : Uuid → Flags
  locked : Uuid → Option Tid
  exits : Uuid → Nat
  queue : List Uuid
  workers : String → Option Handle
  busy : Nat
  assigned : Uuid → List Uuid
  connections : Finset Uuid
  accepted : Uuid → List JobEvent
  limits : LimitState
  notify : Notify
  createdTotal : Nat
  completedTotal : Nat

def Ledger.HasIdle (L : Ledger) : Prop := ∃ w h, L.workers w = some h ∧ h.currentJob = none

/-! ### Roles -/

/-- Why a task is about to complete a session: it was cancelled or ran into a
limit, the worker reported its exit, or the worker is lost. -/
inductive Cause
  | stopped | exited | lost
  deriving DecidableEq, Repr

/-- What a task owes. `counting`: `create_execution` before its counter.
`checking`, `admitting`: `consume_ticket` with `session.inner` held, before and
after it takes the queue. `enqueueing`: `activate_session` before its push.
`popped`, `assigning`, `returning`: the dispatcher with a job in its hands.
`stopping`: a cancellation before it clears the queue. -/
inductive Role
  | idle
  | counting (j : Uuid)
  | checking (j : Uuid)
  | admitting (j : Uuid)
  | enqueueing (j : Uuid)
  | notifying
  | popped (j : Uuid)
  | assigning (j : Uuid)
  | returning (j : Uuid) (blocked : Bool)
  | awaiting
  | parked
  | reporting (j : Uuid)
  | stopping (j : Uuid)
  | ending (cause : Cause) (j : Uuid)
  | completing (j : Uuid) (stage : CompleteAt)
  deriving DecidableEq, Repr

/-! ### Moves -/

/-- `Move config t L r L' r'`: task `t` in role `r` takes the ledger from `L`
to `L'` and is then in role `r'`. -/
inductive Move (config : AppConfig) (t : Tid) : Ledger → Role → Ledger → Role → Prop
  | insert {L id v i} (fresh : id ∉ L.created)
      (room : L.sessions.card < config.sessionCapacity) :
      Move config t L .idle { L with
        created := insert id L.created, sessions := insert id L.sessions
        visitor := update L.visitor id v, ip := update L.ip id i
        flags := update L.flags id .new, exits := update L.exits id 0 } (.counting id)
  | count {L id} :
      Move config t L (.counting id) { L with createdTotal := L.createdTotal + 1 } .idle
  | lock {L j} (known : j ∈ L.created) (free : L.locked j = none)
      (unused : (L.flags j).ticketConsumed = false) (live : (L.flags j).finished = false) :
      Move config t L .idle { L with locked := update L.locked j (some t) } (.checking j)
  | lockQueue {L j} : Move config t L (.checking j) L (.admitting j)
  | reject {L j} :
      Move config t L (.admitting j) { L with locked := update L.locked j none } .idle
  | consume {L j} (room : L.queue.length + L.limits.pendingActivations < config.queueCapacity)
      (visitor : (L.limits.byVisitor (L.visitor j)).getD 0 < config.visitorConcurrency)
      (ip : (L.limits.byIp (L.ip j)).getD 0 < config.ipConcurrency) :
      Move config t L (.admitting j) { L with
        locked := update L.locked j none
        flags := update L.flags j { L.flags j with
          ticketConsumed := true, pendingActivation := true, limitsReserved := true }
        limits := {
          byVisitor := increment L.limits.byVisitor (L.visitor j)
          byIp := increment L.limits.byIp (L.ip j)
          pendingActivations := L.limits.pendingActivations + 1 } } .idle
  | activate {L j} (known : j ∈ L.created) (free : L.locked j = none)
      (pending : (L.flags j).pendingActivation = true) (live : (L.flags j).finished = false) :
      Move config t L .idle { L with
        flags := update L.flags j { L.flags j with
          pendingActivation := false, socketConnected := true } } (.enqueueing j)
  | enqueue {L j} :
      Move config t L (.enqueueing j) { L with
        limits := { L.limits with pendingActivations := L.limits.pendingActivations - 1 }
        queue := L.queue ++ [j] } .notifying
  | notify {L} : Move config t L .notifying { L with notify := L.notify.notifyOne } .idle
  | stop {L j} (known : j ∈ L.created) (live : (L.flags j).finished = false)
      (unassigned : (L.flags j).assignedWorker = none) : Move config t L .idle L (.stopping j)
  | unqueue {L j} :
      Move config t L (.stopping j) { L with queue := L.queue.filter (· ≠ j) } (.ending .stopped j)
  | report {L w h e} (worker : L.workers w = some h) (goesOn : e.exited = none) :
      Move config t L .idle { L with
        accepted := update L.accepted h.connectionId (L.accepted h.connectionId ++ [e]) } .idle
  | reportExit {L w h e j} (worker : L.workers w = some h) (current : h.currentJob = some j)
      (exited : e.exited = some j) :
      Move config t L .idle { L with
        accepted := update L.accepted h.connectionId (L.accepted h.connectionId ++ [e]) }
        (.reporting j)
  | exit {L j} : Move config t L (.reporting j) L (.ending .exited j)
  | exitRefused {L j} : Move config t L (.reporting j) L .idle
  | lose {L w h} (worker : L.workers w = some h) (idle : h.currentJob = none) :
      Move config t L .idle { L with workers := update L.workers w none } .notifying
  | loseBusy {L w h j} (worker : L.workers w = some h) (current : h.currentJob = some j) :
      Move config t L .idle { L with
        workers := update L.workers w none, busy := L.busy - 1 } (.ending .lost j)
  | lostAlready {L j} (gone : j ∉ L.sessions ∨ (L.flags j).finished = true) :
      Move config t L (.ending .lost j) L .notifying
  | finishAgain {L cause j} (kept : cause ≠ .lost) (ended : (L.flags j).finished = true) :
      Move config t L (.ending cause j) L .idle
  | finish {L cause j} (free : L.locked j = none) (live : (L.flags j).finished = false) :
      Move config t L (.ending cause j) { L with
        flags := update L.flags j { L.flags j with finished := true, assignedWorker := none } }
        (.completing j (.sendPhase (L.flags j).assignedWorker))
  | sendPhase {L j w} :
      Move config t L (.completing j (.sendPhase w)) L (.completing j (.sendExit w))
  | sendExit {L j w} :
      Move config t L (.completing j (.sendExit w))
        { L with exits := update L.exits j (L.exits j + 1) } (.completing j (.releaseInner w))
  | keepLimits {L j w} (nothing : ((L.flags j).limitsReleased || !(L.flags j).limitsReserved) = true) :
      Move config t L (.completing j (.releaseInner w)) L (.completing j (.freeWorker w))
  | release {L j w} (free : L.locked j = none) (unreleased : (L.flags j).limitsReleased = false)
      (reserved : (L.flags j).limitsReserved = true) :
      Move config t L (.completing j (.releaseInner w)) { L with
        flags := update L.flags j { L.flags j with
          limitsReleased := true, pendingActivation := false, limitsReserved := false } }
        (.completing j (.releaseLimits w (L.flags j).pendingActivation))
  | settle {L j w wasPending} :
      Move config t L (.completing j (.releaseLimits w wasPending)) { L with
        limits := {
          byVisitor := decrement L.limits.byVisitor (L.visitor j)
          byIp := decrement L.limits.byIp (L.ip j)
          pendingActivations :=
            if wasPending then L.limits.pendingActivations - 1
            else L.limits.pendingActivations } } (.completing j (.freeWorker w))
  | free {L j w h} (worker : L.workers w = some h) (current : h.currentJob = some j) :
      Move config t L (.completing j (.freeWorker (some w))) { L with
        workers := update L.workers w (some { h with currentJob := none })
        busy := L.busy - 1 } (.completing j .count)
  | freeNothing {L j worker}
      (other : ∀ w h, worker = some w → L.workers w = some h → h.currentJob ≠ some j) :
      Move config t L (.completing j (.freeWorker worker)) L (.completing j .count)
  | complete {L j} :
      Move config t L (.completing j .count) { L with completedTotal := L.completedTotal + 1 }
        (.completing j .remove)
  | remove {L j} :
      Move config t L (.completing j .remove) { L with sessions := L.sessions.erase j }
        (.completing j .notify)
  | announce {L j} :
      Move config t L (.completing j .notify) { L with notify := L.notify.notifyOne } .idle
  | announceLoss {L j} :
      Move config t L (.completing j .notify) { L with notify := L.notify.notifyOne } .notifying
  | register {L w c} (fresh : c ∉ L.connections) (free : L.workers w = none) :
      Move config t L .idle { L with
        workers := update L.workers w (some ⟨c, none⟩), assigned := update L.assigned c []
        connections := insert c L.connections } .notifying
  | pop {L j rest} (dispatcher : t = .dispatcher) (head : L.queue = j :: rest) :
      Move config t L .idle { L with queue := rest } (.popped j)
  | empty {L} (dispatcher : t = .dispatcher) (nothing : L.queue = []) :
      Move config t L .idle L .awaiting
  | drop {L j} (ended : j ∉ L.sessions ∨ (L.flags j).finished = true) :
      Move config t L (.popped j) L .idle
  | hold {L j} (free : L.locked j = none) (live : (L.flags j).finished = false) :
      Move config t L (.popped j) { L with locked := update L.locked j (some t) } (.assigning j)
  | assign {L j w h} (room : L.busy < config.globalConcurrency) (worker : L.workers w = some h)
      (idle : h.currentJob = none) :
      Move config t L (.assigning j) { L with
        locked := update L.locked j none
        assigned := update L.assigned h.connectionId (L.assigned h.connectionId ++ [j])
        workers := update L.workers w (some { h with currentJob := some j })
        busy := L.busy + 1
        flags := update L.flags j { L.flags j with assignedWorker := some w } } .idle
  | block {L j} (full : config.globalConcurrency ≤ L.busy ∨ ¬ L.HasIdle) :
      Move config t L (.assigning j) { L with locked := update L.locked j none }
        (.returning j true)
  | undeliverable {L j} :
      Move config t L (.assigning j) { L with locked := update L.locked j none }
        (.returning j false)
  | putBack {L j} :
      Move config t L (.returning j true) { L with queue := j :: L.queue } .awaiting
  | retry {L j} : Move config t L (.returning j false) { L with queue := j :: L.queue } .idle
  | takePermit {L} (permit : L.notify.permit = true) :
      Move config t L .awaiting { L with notify := { L.notify with permit := false } } .idle
  | park {L} (permit : L.notify.permit = false) :
      Move config t L .awaiting { L with notify := { L.notify with waiter := .waiting } } .parked
  | wake {L} (woken : L.notify.waiter = .notified) :
      Move config t L .parked { L with notify := { L.notify with waiter := .absent } } .idle

/-! ### The abstract system -/

structure Overview where
  ledger : Ledger
  role : Tid → Role

def Ledger.new : Ledger where
  created := ∅
  sessions := ∅
  visitor _ := ""
  ip _ := ""
  flags _ := .new
  locked _ := none
  exits _ := 0
  queue := []
  workers _ := none
  busy := 0
  assigned _ := []
  connections := ∅
  accepted _ := []
  limits := ⟨fun _ => none, fun _ => none, 0⟩
  notify := ⟨false, .absent⟩
  createdTotal := 0
  completedTotal := 0

def Overview.Step (config : AppConfig) (o : Overview) (t : Tid) (o' : Overview) : Prop :=
  ∃ r', Move config t o.ledger (o.role t) o'.ledger r' ∧ o'.role = update o.role t r'

def ledgerSystem (config : AppConfig) : System Overview Tid :=
  ⟨⟨.new, fun _ => .idle⟩, Overview.Step config⟩

end SmartC.Executor
