import SmartC.Executor.Step

/-!
# What a step of an operation can do

`Branch` lists the branches of the operations with their guards, and
`exec_branch` says that every step takes one of them. The laws about one part
of the state are case analyses over it.
-/

namespace SmartC.Executor

open Function (update)

/-- The points at which an operation can return an error with nothing changed. -/
def Pc.fallible : Pc → Bool
  | .createExecution _ | .consumeTicket .. | .consumeTicketInner _ | .activateSession _
  | .sendStdin .. | .resize .. | .sendCommand .. | .sendCommandWorker .. | .sendCommandSend ..
  | .registerWorker .. | .heartbeat .. | .handleWorkerEvent .. | .handleWorkerEventSession ..
  | .applyPhase .. | .executionWebsocket .. => true
  | _ => false

/-- The checks of `register_worker` on the message alone. -/
def AcceptableWorker (config : AppConfig) (r : WorkerRegistration) : Prop :=
  ¬ (r.workerId.isEmpty ∨ 128 < r.workerId.utf8ByteSize) ∧
    ¬ (r.architecture.isEmpty ∨ r.backend.isEmpty) ∧
    ¬ (config.requireNsjailWorkers ∧ r.backend ≠ "nsjail")

variable (env : Env) (t : Tid) (choice : Choice) (sh : Shared)

inductive Branch : Pc → Outcome → Prop
  | failed (at_ : pc.fallible = true) (error : r.isOk = false) :
      Branch pc ⟨sh, .done r, none⟩
  -- create_execution
  | validated (valid : validateRequest request = .ok ()) :
      Branch (.createExecution request) ⟨sh, .createExecutionInsert request
        (min (sh.unixNow + env.config.ticketTtl) (2 ^ 64 - 1)), none⟩
  | overCapacity (drawn : choice = .fresh j) (fresh : j ∉ sh.created)
      (full : env.config.sessionCapacity ≤ sh.sessions.card) :
      Branch (.createExecutionInsert request expires)
        ⟨sh.countRejected, .done (.apiError error), none⟩
  | inserted (drawn : choice = .fresh j) (fresh : j ∉ sh.created)
      (room : sh.sessions.card < env.config.sessionCapacity) :
      Branch (.createExecutionInsert request expires)
        ⟨{ sh with
          data := update sh.data j
            ⟨request.files, request.visitorId, request.clientIp, request.terminal, expires⟩
          inner := update sh.inner j .new
          events := update sh.events j []
          created := insert j sh.created
          sessions := insert j sh.sessions }, .createExecutionCount j, none⟩
  | created : Branch (.createExecutionCount j)
      ⟨{ sh with metrics := { sh.metrics with createdTotal := sh.metrics.createdTotal + 1 } },
        .done (.created j), none⟩
  -- consume_ticket
  | verified (ok : env.verify ticket j (sh.data j).visitorId sh.unixNow = .ok ()) :
      Branch (.consumeTicket j ticket) ⟨sh, .consumeTicketInner j, none⟩
  | unused (free : sh.innerLock j = none) (unused : (sh.inner j).ticketConsumed = false)
      (live : (sh.inner j).finished = false) : Branch (.consumeTicketInner j)
        ⟨sh.setInnerLock j (some t), .consumeTicketQueue j, none⟩
  | queueTaken (free : sh.queueLock = none) : Branch (.consumeTicketQueue j)
      ⟨{ sh with queueLock := some t }, .consumeTicketLimits j, none⟩
  | denied : Branch (.consumeTicketLimits j)
      ⟨{ sh.setInnerLock j none with queueLock := none }.countRejected, .done (.apiError error),
        none⟩
  | admitted (room : sh.queue.length + sh.limits.pendingActivations < env.config.queueCapacity)
      (visitor : (sh.limits.byVisitor (sh.data j).visitorId).getD 0 <
        env.config.visitorConcurrency)
      (ip : (sh.limits.byIp (sh.data j).clientIp).getD 0 < env.config.ipConcurrency) :
      Branch (.consumeTicketLimits j)
        ⟨{ { sh.setInnerLock j none with queueLock := none }.setInner j { sh.inner j with
            ticketConsumed := true, pendingActivation := true, limitsReserved := true } with
          limits := {
            byVisitor := increment sh.limits.byVisitor (sh.data j).visitorId
            byIp := increment sh.limits.byIp (sh.data j).clientIp
            pendingActivations := sh.limits.pendingActivations + 1 } }, .done .unit, none⟩
  -- activate_session
  | activated (free : sh.innerLock j = none) (consumed : (sh.inner j).ticketConsumed = true)
      (pending : (sh.inner j).pendingActivation = true) (live : (sh.inner j).finished = false) :
      Branch (.activateSession j)
        ⟨sh.setInner j { sh.inner j with pendingActivation := false, socketConnected := true },
          .activateSessionQueue j, none⟩
  | activating (free : sh.queueLock = none) : Branch (.activateSessionQueue j)
      ⟨{ sh with queueLock := some t }, .activateSessionLimits j, none⟩
  | enqueued : Branch (.activateSessionLimits j)
      ⟨{ sh with
        queueLock := none
        limits := { sh.limits with pendingActivations := sh.limits.pendingActivations - 1 }
        queue := sh.queue ++ [j] }, .activateSessionSend j (sh.queue.length + 1), none⟩
  | queueAnnounced : Branch (.activateSessionSend j position)
      ⟨sh.broadcast j (.text (.phase .queued (some position))), .activateSessionNotify position,
        none⟩
  | enqueueNotified : Branch (.activateSessionNotify position)
      ⟨sh.notifyOne, .done (.position position), none⟩
  -- send_stdin, resize, cancel_execution, resource_limit_execution, send_command
  | stdin (short : data.length ≤ 8 * 1024) (free : sh.innerLock j = none)
      (running : (sh.inner j).phase = .running) (live : (sh.inner j).finished = false)
      (within : saturatingAdd (sh.inner j).stdinBytes data.length ≤ 64 * 1024) :
      Branch (.sendStdin j data)
        ⟨sh.setInner j { sh.inner j with
          stdinBytes := saturatingAdd (sh.inner j).stdinBytes data.length },
          .sendCommand j (.stdin data), none⟩
  | resized (valid : validateTerminal ⟨cols, rows⟩ = .ok ()) :
      Branch (.resize j cols rows)
        ⟨sh, .sendCommand j (.resize cols.toUInt32 rows.toUInt32), none⟩
  | stopFinished (free : sh.innerLock j = none) (finished : (sh.inner j).finished = true) :
      Branch (.stop kind j) ⟨sh, .done .unit, none⟩
  | stopWaiting (free : sh.innerLock j = none) (live : (sh.inner j).finished = false)
      (unassigned : (sh.inner j).assignedWorker = none) :
      Branch (.stop kind j) ⟨sh, .stopQueue kind j, none⟩
  | stopAssigned (free : sh.innerLock j = none) (live : (sh.inner j).finished = false)
      (worker : (sh.inner j).assignedWorker = some w) : Branch (.stop kind j)
        ⟨sh, .sendCommand j (.cancel kind.commandReason), none⟩
  | dequeued (free : sh.queueLock = none) : Branch (.stopQueue kind j)
      ⟨{ sh with queue := sh.queue.filter (· ≠ j) },
        .completeSession j ⟨kind.phase, none, none, kind.exitReason⟩ .finish, some .stopped⟩
  | named (free : sh.innerLock j = none) (worker : (sh.inner j).assignedWorker = some w) :
      Branch (.sendCommand j action) ⟨sh, .sendCommandWorker j action w, none⟩
  | found (worker : sh.workers.lookup w = some h) :
      Branch (.sendCommandWorker j action w)
        ⟨sh, .sendCommandSend j action w h.connectionId, none⟩
  | sent (sent : (sh.channel c).trySend (.command ⟨j, some action⟩) = .ok ch) :
      Branch (.sendCommandSend j action w c)
        ⟨sh.setChannel c ch, .done .unit, none⟩
  | closed (closed : (sh.channel c).trySend (.command ⟨j, some action⟩) = .error .closed) :
      Branch (.sendCommandSend j action w c)
        ⟨sh, .unregisterWorker w c "実行Workerへの操作channelが閉じました", some .sendCommandClosed⟩
  -- register_worker, heartbeat
  | registered (acceptable : AcceptableWorker env.config r) (drawn : choice = .fresh c)
      (fresh : c ∉ sh.connections) (free : sh.workers.lookup r.workerId = none) :
      Branch (.registerWorker r capacity)
        ⟨{ (sh.setWorker r.workerId
            ⟨c, r.architecture, r.backend, none, none, sh.instant⟩).setChannel c
              ⟨capacity, [], 0, false⟩ with
          connections := insert c sh.connections }, .registerWorkerNotify c, none⟩
  | registerNotified : Branch (.registerWorkerNotify c)
      ⟨sh.notifyOne, .done (.connection c), none⟩
  | beat (worker : sh.workers.lookup w = some h) (connection : h.connectionId = c)
      (report : h.checkReport sh.instant reported = .ok ()) :
      Branch (.heartbeat w c reported)
        ⟨sh.setWorker w { h with lastSeen := sh.instant }, .done .unit, none⟩
  -- handle_worker_event
  | accepted (job : e.jobId.parse = some j) (worker : sh.workers.lookup e.workerId = some h)
      (connection : h.connectionId = c) (current : h.currentJob = some j) :
      Branch (.handleWorkerEvent c e)
        ⟨{ sh.setWorker e.workerId { h with lastSeen := sh.instant } with
          accepted := update sh.accepted c (sh.accepted c ++ [e]) },
          .handleWorkerEventSession j e.payload, none⟩
  | phaseEvent (member : j ∈ sh.sessions) :
      Branch (.handleWorkerEventSession j (some (.phase n)))
        ⟨sh, .applyPhase j n, none⟩
  | compilerEvent (member : j ∈ sh.sessions) :
      Branch (.handleWorkerEventSession j (some (.compilerOutput stream data)))
        ⟨sh, .applyCompilerOutput j stream data, none⟩
  | terminalEvent (member : j ∈ sh.sessions) :
      Branch (.handleWorkerEventSession j (some (.terminalOutput data)))
        ⟨sh, .applyTerminalOutput j data, none⟩
  | exitEvent (member : j ∈ sh.sessions) (reason : protocolExitReason n = some r) :
      Branch (.handleWorkerEventSession j (some (.exit code signal n)))
        ⟨sh, .completeSession j ⟨phaseForExit r, code, signal, r⟩ .finish, some .exitApplied⟩
  | errorEvent (member : j ∈ sh.sessions) :
      Branch (.handleWorkerEventSession j (some (.error code message retryable)))
        ⟨sh, .applyError j code message retryable, none⟩
  | phaseLate (free : sh.innerLock j = none) (finished : (sh.inner j).finished = true) :
      Branch (.applyPhase j n) ⟨sh, .done .unit, none⟩
  | phaseChanged (phase : protocolPhase n = some p) (free : sh.innerLock j = none)
      (live : (sh.inner j).finished = false) (valid : validTransition (sh.inner j).phase p = true) :
      Branch (.applyPhase j n)
        ⟨sh.setInner j { sh.inner j with phase := p }, .applyPhaseSend j p, none⟩
  | phaseSent : Branch (.applyPhaseSend j p)
      ⟨sh.broadcast j (.text (.phase p none)), .done .unit, none⟩
  | compilerCounted (free : sh.innerLock j = none)
      (within : saturatingAdd (sh.inner j).compilerOutputBytes data.length ≤
        compilerOutputLimitBytes) : Branch (.applyCompilerOutput j stream data)
        ⟨sh.setInner j { sh.inner j with
          compilerOutputBytes := saturatingAdd (sh.inner j).compilerOutputBytes data.length },
          .applyCompilerOutputCount j stream data, none⟩
  | compilerLimited (free : sh.innerLock j = none)
      (exceeded : compilerOutputLimitBytes <
        saturatingAdd (sh.inner j).compilerOutputBytes data.length) :
      Branch (.applyCompilerOutput j stream data)
        ⟨sh.setInner j { sh.inner j with
          compilerOutputBytes := saturatingAdd (sh.inner j).compilerOutputBytes data.length },
          .cancelExecution j "compiler_output_limit",
          some (.outputLimited "コンパイラ出力が上限を超えました")⟩
  | compilerRefused : Branch (.applyCompilerOutputCount j stream data)
      ⟨{ sh with metrics := { sh.metrics with
        compilerOutputBytes := sh.metrics.compilerOutputBytes + data.length } },
        .done (.status status), none⟩
  | compilerMetered (known : protocolOutputStream n = some stream) :
      Branch (.applyCompilerOutputCount j n data)
        ⟨{ sh with metrics := { sh.metrics with
          compilerOutputBytes := sh.metrics.compilerOutputBytes + data.length } },
          .applyCompilerOutputSend j stream data, none⟩
  | compilerSent : Branch (.applyCompilerOutputSend j stream data)
      ⟨sh.broadcast j (.text (.compilerOutput stream (env.fromUtf8Lossy data))), .done .unit, none⟩
  | terminalCounted (free : sh.innerLock j = none)
      (within : saturatingAdd (sh.inner j).terminalOutputBytes data.length ≤
        terminalOutputLimitBytes) : Branch (.applyTerminalOutput j data)
        ⟨sh.setInner j { sh.inner j with
          terminalOutputBytes := saturatingAdd (sh.inner j).terminalOutputBytes data.length },
          .applyTerminalOutputCount j data, none⟩
  | terminalLimited (free : sh.innerLock j = none)
      (exceeded : terminalOutputLimitBytes <
        saturatingAdd (sh.inner j).terminalOutputBytes data.length) :
      Branch (.applyTerminalOutput j data)
        ⟨sh.setInner j { sh.inner j with
          terminalOutputBytes := saturatingAdd (sh.inner j).terminalOutputBytes data.length },
          .cancelExecution j "terminal_output_limit",
          some (.outputLimited "端末出力が上限を超えました")⟩
  | terminalMetered : Branch (.applyTerminalOutputCount j data)
      ⟨{ sh with metrics := { sh.metrics with
        terminalOutputBytes := sh.metrics.terminalOutputBytes + data.length } },
        .applyTerminalOutputSend j data, none⟩
  | terminalSent : Branch (.applyTerminalOutputSend j data)
      ⟨sh.broadcast j (.binary data), .done .unit, none⟩
  | errorSent : Branch (.applyError j code message retryable)
      ⟨sh.broadcast j (.text (.error code message retryable)), .done .unit, none⟩
  -- complete_session
  | completeAgain (free : sh.innerLock j = none) (finished : (sh.inner j).finished = true) :
      Branch (.completeSession j e .finish) ⟨sh, .done .unit, none⟩
  | finished (free : sh.innerLock j = none) (live : (sh.inner j).finished = false) :
      Branch (.completeSession j e .finish)
        ⟨sh.setInner j { sh.inner j with
          phase := e.phase, finished := true, assignedWorker := none },
          .completeSession j e (.sendPhase (sh.inner j).assignedWorker), none⟩
  | finalPhase : Branch (.completeSession j e (.sendPhase worker))
      ⟨sh.broadcast j (.text (.phase e.phase none)), .completeSession j e (.sendExit worker), none⟩
  | exitSent : Branch (.completeSession j e (.sendExit worker))
      ⟨sh.broadcast j (.text (.exit e.code e.signal e.reason)),
        .completeSession j e (.releaseInner worker), none⟩
  | unreserved (free : sh.innerLock j = none)
      (unreserved : (sh.inner j).limitsReleased = true ∨ (sh.inner j).limitsReserved = false) :
      Branch (.completeSession j e (.releaseInner worker))
        ⟨sh, .completeSession j e (.freeWorker worker), none⟩
  | released (free : sh.innerLock j = none) (unreleased : (sh.inner j).limitsReleased = false)
      (reserved : (sh.inner j).limitsReserved = true) :
      Branch (.completeSession j e (.releaseInner worker))
        ⟨sh.setInner j { sh.inner j with
          limitsReleased := true, pendingActivation := false, limitsReserved := false },
          .completeSession j e (.releaseLimits worker (sh.inner j).pendingActivation), none⟩
  | limitsReleased : Branch (.completeSession j e (.releaseLimits worker wasPending))
      ⟨{ sh with limits := {
        byVisitor := decrement sh.limits.byVisitor (sh.data j).visitorId
        byIp := decrement sh.limits.byIp (sh.data j).clientIp
        pendingActivations :=
          if wasPending then sh.limits.pendingActivations - 1
          else sh.limits.pendingActivations } }, .completeSession j e (.freeWorker worker), none⟩
  | workerKept (other : ∀ w ∈ worker, ∀ h, sh.workers.lookup w = some h → h.currentJob ≠ some j) :
      Branch (.completeSession j e (.freeWorker worker))
        ⟨sh, .completeSession j e .count, none⟩
  | freed (worker : sh.workers.lookup w = some h) (current : h.currentJob = some j) :
      Branch (.completeSession j e (.freeWorker (some w)))
        ⟨sh.setWorker w { h with
          currentJob := none, recentlyCompletedJob := some (j, sh.instant) },
          .completeSession j e .count, none⟩
  | completed : Branch (.completeSession j e .count)
      ⟨{ sh with metrics := { sh.metrics with completedTotal := sh.metrics.completedTotal + 1 } },
        .completeSession j e .remove, none⟩
  | removed : Branch (.completeSession j e .remove)
      ⟨{ sh with sessions := sh.sessions.erase j }, .completeSession j e .notify, none⟩
  | completeNotified : Branch (.completeSession j e .notify)
      ⟨sh.notifyOne, .done .unit, none⟩
  -- unregister_worker
  | notLost (other : ∀ h, sh.workers.lookup w = some h → h.connectionId ≠ c) :
      Branch (.unregisterWorker w c detail) ⟨sh, .done .unit, none⟩
  | lost (worker : sh.workers.lookup w = some h) (connection : h.connectionId = c) :
      Branch (.unregisterWorker w c detail)
        ⟨{ sh with workers := sh.workers.erase w }, .unregisterWorkerCount h.currentJob detail, none⟩
  | lostIdle : Branch (.unregisterWorkerCount none detail)
      ⟨{ sh with metrics := { sh.metrics with
        workerDisconnectsTotal := sh.metrics.workerDisconnectsTotal + 1 } },
        .unregisterWorkerNotify, none⟩
  | lostBusy : Branch (.unregisterWorkerCount (some j) detail)
      ⟨{ sh with metrics := { sh.metrics with
        workerDisconnectsTotal := sh.metrics.workerDisconnectsTotal + 1 } },
        .unregisterWorkerSession j detail, none⟩
  | lostSession (member : j ∈ sh.sessions) :
      Branch (.unregisterWorkerSession j detail)
        ⟨sh, .unregisterWorkerSend j detail, none⟩
  | lostNoSession (gone : j ∉ sh.sessions) :
      Branch (.unregisterWorkerSession j detail) ⟨sh, .unregisterWorkerNotify, none⟩
  | lossSent : Branch (.unregisterWorkerSend j detail)
      ⟨sh.broadcast j (.text (.error "worker_disconnected" detail true)),
        .completeSession j ⟨.exited, none, none, .internalError⟩ .finish,
        some .unregisterWorkerNotify⟩
  | lossNotified : Branch .unregisterWorkerNotify ⟨sh.notifyOne, .done .unit, none⟩
  -- run_dispatcher, try_dispatch_one
  | nothingQueued (free : sh.queueLock = none) (empty : sh.queue = []) :
      Branch .dispatchPop ⟨sh, .dispatchAwait, none⟩
  | popped (free : sh.queueLock = none) (queue : sh.queue = j :: rest) :
      Branch .dispatchPop ⟨{ sh with queue := rest }, .dispatchSession j, none⟩
  | dispatching (member : j ∈ sh.sessions) :
      Branch (.dispatchSession j) ⟨sh, .dispatchInner j, none⟩
  | dispatchGone (gone : j ∉ sh.sessions) :
      Branch (.dispatchSession j) ⟨sh, .dispatchPop, none⟩
  | dispatchFinished (free : sh.innerLock j = none) (finished : (sh.inner j).finished = true) :
      Branch (.dispatchInner j) ⟨sh, .dispatchPop, none⟩
  | dispatchTaken (free : sh.innerLock j = none) (live : (sh.inner j).finished = false) :
      Branch (.dispatchInner j) ⟨sh.setInnerLock j (some t), .dispatchWorkers j, none⟩
  | noWorker (busy : env.config.globalConcurrency ≤ sh.busy ∨
        sh.workers.entries.all (·.2.currentJob.isSome) = true) :
      Branch (.dispatchWorkers j) ⟨sh.setInnerLock j none, .dispatchPushFront j none, none⟩
  | assigned (room : sh.busy < env.config.globalConcurrency) (chosen : choice = .candidate w)
      (worker : sh.workers.lookup w = some h) (idle : h.currentJob = none)
      (sent : (sh.channel h.connectionId).trySend (.assignment (sh.assignment j)) = .ok ch) :
      Branch (.dispatchWorkers j)
        ⟨(((sh.setInnerLock j none).setChannel h.connectionId ch).setWorker w
          { h with currentJob := some j }).setInner j
            { sh.inner j with assignedWorker := some w }, .dispatchPop, none⟩
  | notAssigned (room : sh.busy < env.config.globalConcurrency) (chosen : choice = .candidate w)
      (worker : sh.workers.lookup w = some h) (idle : h.currentJob = none)
      (failed : (sh.channel h.connectionId).trySend (.assignment (sh.assignment j)) = .error e) :
      Branch (.dispatchWorkers j)
        ⟨sh.setInnerLock j none, .dispatchPushFront j (some (w, h.connectionId)), none⟩
  | pushedBack (free : sh.queueLock = none) : Branch (.dispatchPushFront j none)
      ⟨{ sh with queue := j :: sh.queue }, .dispatchAwait, none⟩
  | pushedLost (free : sh.queueLock = none) : Branch (.dispatchPushFront j (some (w, c)))
      ⟨{ sh with queue := j :: sh.queue },
        .unregisterWorker w c "実行Workerへの割当送信が滞留しました", some .dispatchLoop⟩
  | permitTaken (permit : sh.notify.permit = true) : Branch .dispatchAwait
      ⟨{ sh with notify := { sh.notify with permit := false } }, .dispatchPop, none⟩
  | parked (permit : sh.notify.permit = false) : Branch .dispatchAwait
      ⟨{ sh with notify := { sh.notify with waiter := .waiting } }, .dispatchParked, none⟩
  | woken (woken : sh.notify.waiter = .notified) : Branch .dispatchParked
      ⟨{ sh with notify := { sh.notify with waiter := .absent } }, .dispatchPop, none⟩
  -- maintenance_once
  | staleFound (stale : choice = .stale ws) (all : ws.Perm (sh.staleWorkers env)) :
      Branch .maintenanceOnce ⟨sh, .maintenanceWorkers ws, none⟩
  | staleDone : Branch (.maintenanceWorkers []) ⟨sh, .maintenanceNow, none⟩
  | staleLost : Branch (.maintenanceWorkers ((w, c) :: rest))
      ⟨sh, .unregisterWorker w c "実行Workerのheartbeatが途絶えました",
        some (.maintenanceWorkers rest)⟩
  | sessionsListed (order : choice = .order js) (all : js.Nodup ∧ js.toFinset = sh.sessions) :
      Branch .maintenanceNow ⟨sh, .maintenanceSessions sh.unixNow js, none⟩
  | sessionsDone : Branch (.maintenanceSessions now []) ⟨sh, .done .unit, none⟩
  | expired (free : sh.innerLock j = none) (unconnected : (sh.inner j).socketConnected = false)
      (live : (sh.inner j).finished = false) (expired : (sh.data j).ticketExpiresUnix ≤ now) :
      Branch (.maintenanceSessions now (j :: rest))
        ⟨sh, .cancelExecution j "ticket_expired", some (.maintenanceSessions now rest)⟩
  | unexpired (free : sh.innerLock j = none) :
      Branch (.maintenanceSessions now (j :: rest)) ⟨sh, .maintenanceSessions now rest, none⟩
  -- execution_websocket, websocket_session
  | presented (member : j ∈ sh.sessions) : Branch (.executionWebsocket j ticket)
      ⟨sh, .consumeTicket j ticket, some (.executionWebsocket j)⟩
  | upgraded : Branch (.websocketSession j)
      ⟨sh, .websocketHello ⟨j, (sh.events j).length, .new sh.nowSeconds⟩, none⟩
  | helloFailed (failed : choice.writeFailed = true) : Branch (.websocketHello s)
      ⟨sh, .cancelExecution s.session "websocket_disconnected",
        some (.websocketReturn s.session false)⟩
  | greeted (written : choice.writeFailed = false) :
      Branch (.websocketHello s) ⟨sh, .websocketSnapshot s, none⟩
  | snapshot (free : sh.innerLock s.session = none) : Branch (.websocketSnapshot s)
      ⟨sh, .websocketSendSnapshot s (sh.inner s.session).phase, none⟩
  | snapshotFailed (failed : choice.writeFailed = true) : Branch (.websocketSendSnapshot s phase)
      ⟨sh, .cancelExecution s.session "websocket_disconnected",
        some (.websocketReturn s.session false)⟩
  | snapshotSent (written : choice.writeFailed = false) : Branch (.websocketSendSnapshot s phase)
      ⟨sh, .activateSession s.session, some (.websocketActivated s)⟩
  | notActivated : Branch (.websocketRefused j)
      ⟨sh, .cancelExecution j "activation_failed", some (.websocketReturn j false)⟩
  | lagging (event : choice = .event written)
      (lag : 256 < (sh.events s.session).length - s.position) : Branch (.websocketSelect s)
        ⟨sh, .cancelExecution s.session "client_too_slow", some (.websocketBreak s.session)⟩
  | delivered (event : choice = .event true) (next : (sh.events s.session)[s.position]? = some e)
      (goesOn : e.closesSocket = false) : Branch (.websocketSelect s)
        ⟨sh, .websocketSelect { s with position := s.position + 1 }, none⟩
  | ended : Branch (.websocketSelect s) ⟨sh, .websocketClose s.session false, none⟩
  | flooded (incoming : choice = .incoming (some m) written)
      (limited : (s.limiter.allowAt sh.nowSeconds).1 = false) : Branch (.websocketSelect s)
        ⟨sh, .resourceLimitExecution s.session "client_message_rate",
          some (.websocketRateLimited s.session)⟩
  | stdinFrame (incoming : choice = .incoming (some (.binary data)) written)
      (allowed : (s.limiter.allowAt sh.nowSeconds).1 = true) : Branch (.websocketSelect s)
        ⟨sh, .sendStdin s.session data,
          some (.websocketHandled { s with limiter := (s.limiter.allowAt sh.nowSeconds).2 })⟩
  | resizeFrame (allowed : (s.limiter.allowAt sh.nowSeconds).1 = true) :
      Branch (.websocketSelect s) ⟨sh, .resize s.session cols rows,
        some (.websocketHandled { s with limiter := (s.limiter.allowAt sh.nowSeconds).2 })⟩
  | terminateFrame (allowed : (s.limiter.allowAt sh.nowSeconds).1 = true) :
      Branch (.websocketSelect s) ⟨sh, .cancelExecution s.session "user_terminated",
        some (.websocketHandled { s with limiter := (s.limiter.allowAt sh.nowSeconds).2 })⟩
  | frameAnswered (allowed : (s.limiter.allowAt sh.nowSeconds).1 = true) :
      Branch (.websocketSelect s)
        ⟨sh, .websocketSelect { s with limiter := (s.limiter.allowAt sh.nowSeconds).2 }, none⟩
  | frameRefused (allowed : (s.limiter.allowAt sh.nowSeconds).1 = true) :
      Branch (.websocketSelect s) ⟨sh, .websocketSendError
        { s with limiter := (s.limiter.allowAt sh.nowSeconds).2 } error, none⟩
  | errorFailed (failed : choice.writeFailed = true) : Branch (.websocketSendError s error)
      ⟨sh, .websocketClose s.session false, none⟩
  | errorWritten (written : choice.writeFailed = false) : Branch (.websocketSendError s error)
      ⟨sh, .websocketSelect s, none⟩
  | closedAfterStop : Branch (.websocketClose j true) ⟨sh, .done (.websocket j true), none⟩
  | disconnected : Branch (.websocketClose j false)
      ⟨sh, .cancelExecution j "websocket_disconnected", some (.websocketReturn j true)⟩
  -- process_worker_stream
  | hungUp : Branch (.processWorkerStream w c)
      ⟨sh, .unregisterWorker w c "実行WorkerとのgRPC接続が切断されました", none⟩
  | heartbeatRead (inbound : choice = .inbound (some (.heartbeat w reported))) :
      Branch (.processWorkerStream w c)
        ⟨sh, .heartbeat w c reported, some (.processWorkerStream w c)⟩
  | eventRead (inbound : choice = .inbound (some (.event e))) (own : e.workerId = w) :
      Branch (.processWorkerStream w c)
        ⟨sh, .handleWorkerEvent c e, some (.processWorkerStream w c)⟩
  | emptyRead (inbound : choice = .inbound (some .empty)) : Branch (.processWorkerStream w c)
      ⟨sh, .processWorkerStream w c, none⟩

section

variable {env t choice sh} {pc : Pc} {o : Outcome}

theorem completeSession_branch (h : completeSession sh j e stage = some o) :
    Branch env t choice sh (.completeSession j e stage) o := by
  cases stage with
  | finish =>
    simp only [completeSession, goto] at h
    repeat' split at h
    all_goals cases h
    · exact .completeAgain (by simp_all) ‹_›
    · exact .finished (by simp_all) (by simp_all)
  | releaseInner worker =>
    simp only [completeSession, goto] at h
    repeat' split at h
    all_goals cases h
    · exact .unreserved (by simp_all) (by simp_all)
    · exact .released (by simp_all) (by simp_all) (by simp_all)
  | freeWorker worker =>
    cases worker with
    | none => cases h; exact .workerKept (by simp)
    | some w =>
      simp only [completeSession, goto] at h
      repeat' split at h
      all_goals cases h
      · exact .workerKept (by simp_all)
      · exact .freed ‹_› ‹_›
      · exact .workerKept (by simp_all)
  | sendPhase => cases h; exact .finalPhase
  | sendExit => cases h; exact .exitSent
  | releaseLimits => cases h; exact .limitsReleased
  | count => cases h; exact .completed
  | remove => cases h; exact .removed
  | notify => cases h; exact .completeNotified

theorem websocketSelect_branch (h : websocketSelect choice sh s = some o) :
    Branch env t choice sh (.websocketSelect s) o := by
  simp only [websocketSelect, goto, call] at h
  split at h
  · repeat' split at h
    all_goals cases h
    · exact .lagging rfl ‹_›
    · exact .ended
    · exact .delivered (by simp_all) ‹_› (by simp_all)
  · cases h; exact .ended
  · split at h
    · rename_i m written _ allowed
      cases m <;> simp only [handleClientMessage, handleClientMessage.pong, goto, call] at h
      all_goals repeat' split at h
      all_goals cases h
      all_goals first
        | exact .stdinFrame rfl allowed
        | exact .resizeFrame allowed
        | exact .terminateFrame allowed
        | exact .frameAnswered allowed
        | exact .frameRefused allowed
    · cases h
      exact .flooded rfl (by simp_all)
  · cases h

theorem exec_branch (h : exec env t choice sh pc = some o) : Branch env t choice sh pc o := by
  cases pc with
  | vacant | done => cases h
  | completeSession => exact completeSession_branch h
  | websocketSelect => exact websocketSelect_branch h
  -- points with one outcome; those that follow are split along their tests
  | createExecutionCount => cases h; exact .created
  | activateSessionLimits => cases h; exact .enqueued
  | activateSessionSend => cases h; exact .queueAnnounced
  | activateSessionNotify => cases h; exact .enqueueNotified
  | registerWorkerNotify => cases h; exact .registerNotified
  | applyPhaseSend => cases h; exact .phaseSent
  | applyCompilerOutputSend => cases h; exact .compilerSent
  | applyTerminalOutputCount => cases h; exact .terminalMetered
  | applyTerminalOutputSend => cases h; exact .terminalSent
  | applyError => cases h; exact .errorSent
  | unregisterWorkerCount job =>
    cases job <;> cases h
    exacts [.lostIdle, .lostBusy]
  | unregisterWorkerSend => cases h; exact .lossSent
  | unregisterWorkerNotify => cases h; exact .lossNotified
  | maintenanceWorkers stale =>
    rcases stale with _ | ⟨⟨w, c⟩, rest⟩ <;> cases h
    exacts [.staleDone, .staleLost]
  | websocketSession => cases h; exact .upgraded
  | websocketRefused => cases h; exact .notActivated
  | createExecution =>
    simp only [exec, createExecution, goto, fail] at h
    split at h <;> cases h
    exacts [.failed rfl rfl, .validated ‹_›]
  | createExecutionInsert =>
    simp only [exec, createExecutionInsert, goto, fail] at h
    repeat' split at h
    all_goals cases h
    · exact .overCapacity rfl ‹_› ‹_›
    · exact .inserted rfl ‹_› (Nat.lt_of_not_le ‹_›)
  | consumeTicket =>
    simp only [exec, consumeTicket, goto, fail] at h
    split at h <;> cases h
    exacts [.failed rfl rfl, .verified ‹_›]
  | consumeTicketInner =>
    simp only [exec, consumeTicketInner, goto, fail] at h
    repeat' split at h
    all_goals cases h
    iterate 2 exact .failed rfl rfl
    exact .unused (by simp_all) (by simp_all) (by simp_all)
  | consumeTicketQueue =>
    simp only [exec, consumeTicketQueue, goto] at h
    split at h <;> cases h
    exact .queueTaken (by simp_all)
  | consumeTicketLimits =>
    simp only [exec, consumeTicketLimits, goto, fail] at h
    repeat' split at h
    all_goals cases h
    iterate 3 exact .denied
    exact .admitted (Nat.lt_of_not_le ‹_›) (Nat.lt_of_not_le ‹_›) (Nat.lt_of_not_le ‹_›)
  | activateSession =>
    simp only [exec, activateSession, goto, fail] at h
    repeat' split at h
    all_goals cases h
    · exact .failed rfl rfl
    · exact .activated (by simp_all) (by simp_all) (by simp_all) (by simp_all)
  | activateSessionQueue =>
    simp only [exec, activateSessionQueue, goto] at h
    split at h <;> cases h
    exact .activating (by simp_all)
  | sendStdin =>
    simp only [exec, sendStdin, goto, fail] at h
    repeat' split at h
    all_goals cases h
    iterate 3 exact .failed rfl rfl
    exact .stdin (by omega) (by simp_all) (by simp_all) (by simp_all) (by omega)
  | resize =>
    simp only [exec, resize, goto, fail] at h
    split at h <;> cases h
    exacts [.failed rfl rfl, .resized ‹_›]
  | stop =>
    simp only [exec, stop, goto] at h
    repeat' split at h
    all_goals cases h
    · exact .stopFinished (by simp_all) ‹_›
    · exact .stopWaiting (by simp_all) (by simp_all) ‹_›
    · exact .stopAssigned (by simp_all) (by simp_all) ‹_›
  | stopQueue =>
    simp only [exec, stopQueue, call] at h
    split at h <;> cases h
    exact .dequeued (by simp_all)
  | sendCommand =>
    simp only [exec, sendCommand, goto, fail] at h
    repeat' split at h
    all_goals cases h
    exacts [.failed rfl rfl, .named (by simp_all) ‹_›]
  | sendCommandWorker =>
    simp only [exec, sendCommandWorker, goto, fail] at h
    split at h <;> cases h
    exacts [.failed rfl rfl, .found ‹_›]
  | sendCommandSend =>
    simp only [exec, sendCommandSend, goto, fail, call] at h
    split at h <;> cases h
    exacts [.sent ‹_›, .failed rfl rfl, .closed ‹_›]
  | registerWorker =>
    simp only [exec, registerWorker, goto, refuse] at h
    repeat' split at h
    all_goals cases h
    iterate 4 exact .failed rfl rfl
    exact .registered ⟨‹_›, ‹_›, ‹_›⟩ rfl ‹_› (by simp_all)
  | heartbeat =>
    simp only [exec, heartbeat, goto, refuse] at h
    repeat' split at h
    all_goals cases h
    iterate 3 exact .failed rfl rfl
    exact .beat ‹_› (by simp_all) ‹_›
  | handleWorkerEvent =>
    simp only [exec, handleWorkerEvent, goto, refuse] at h
    repeat' split at h
    all_goals cases h
    iterate 4 exact .failed rfl rfl
    exact .accepted ‹_› ‹_› (by simp_all) (by simp_all)
  | handleWorkerEventSession =>
    simp only [exec, handleWorkerEventSession, goto, call, refuse] at h
    repeat' split at h
    all_goals cases h
    all_goals first
      | exact .failed rfl rfl
      | exact .phaseEvent (by simp_all)
      | exact .compilerEvent (by simp_all)
      | exact .terminalEvent (by simp_all)
      | exact .exitEvent (by simp_all) ‹_›
      | exact .errorEvent (by simp_all)
  | applyPhase =>
    simp only [exec, applyPhase, goto, refuse] at h
    repeat' split at h
    all_goals cases h
    · exact .failed rfl rfl
    · exact .phaseLate (by simp_all) ‹_›
    · exact .failed rfl rfl
    · exact .phaseChanged ‹_› (by simp_all) (by simp_all) (by simp_all)
  | applyCompilerOutput =>
    simp only [exec, applyCompilerOutput, goto, call] at h
    repeat' split at h
    all_goals cases h
    exacts [.compilerLimited (by simp_all) ‹_›, .compilerCounted (by simp_all) (Nat.le_of_not_lt ‹_›)]
  | applyCompilerOutputCount =>
    simp only [exec, applyCompilerOutputCount, goto, refuse] at h
    split at h <;> cases h
    exacts [.compilerRefused, .compilerMetered ‹_›]
  | applyTerminalOutput =>
    simp only [exec, applyTerminalOutput, goto, call] at h
    repeat' split at h
    all_goals cases h
    exacts [.terminalLimited (by simp_all) ‹_›, .terminalCounted (by simp_all) (Nat.le_of_not_lt ‹_›)]
  | unregisterWorker =>
    simp only [exec, unregisterWorker, goto] at h
    repeat' split at h
    all_goals cases h
    · exact .notLost (by simp_all)
    · exact .lost ‹_› ‹_›
    · exact .notLost (by simp_all)
  | unregisterWorkerSession =>
    simp only [exec, unregisterWorkerSession, goto] at h
    split at h <;> cases h
    exacts [.lostSession ‹_›, .lostNoSession ‹_›]
  | dispatchPop =>
    simp only [exec, dispatchPop, goto] at h
    repeat' split at h
    all_goals cases h
    exacts [.nothingQueued (by simp_all) ‹_›, .popped (by simp_all) ‹_›]
  | dispatchSession =>
    simp only [exec, dispatchSession, goto] at h
    split at h <;> cases h
    exacts [.dispatching ‹_›, .dispatchGone ‹_›]
  | dispatchInner =>
    simp only [exec, dispatchInner, goto] at h
    repeat' split at h
    all_goals cases h
    exacts [.dispatchFinished (by simp_all) ‹_›, .dispatchTaken (by simp_all) (by simp_all)]
  | dispatchWorkers =>
    simp only [exec, dispatchWorkers, goto] at h
    split at h
    · cases h; exact .noWorker (.inl ‹_›)
    have room := Nat.lt_of_not_le ‹_›
    repeat' split at h
    all_goals cases h
    · exact .assigned room rfl ‹_› (by simp_all) ‹_›
    · exact .notAssigned room rfl ‹_› (by simp_all) ‹_›
    · exact .noWorker (.inr ‹_›)
  | dispatchPushFront =>
    simp only [exec, dispatchPushFront, goto, call] at h
    repeat' split at h
    all_goals cases h
    exacts [.pushedBack (by simp_all), .pushedLost (by simp_all)]
  | dispatchAwait =>
    simp only [exec, dispatchAwait, goto] at h
    split at h <;> cases h
    exacts [.permitTaken ‹_›, .parked (by simp_all)]
  | dispatchParked =>
    simp only [exec, dispatchParked, goto] at h
    split at h <;> cases h
    exact .woken ‹_›
  | maintenanceOnce =>
    simp only [exec, maintenanceOnce, goto] at h
    repeat' split at h
    all_goals cases h
    exact .staleFound rfl ‹_›
  | maintenanceNow =>
    simp only [exec, maintenanceNow, goto] at h
    repeat' split at h
    all_goals cases h
    exact .sessionsListed rfl ‹_›
  | maintenanceSessions now js =>
    rcases js with _ | ⟨j, rest⟩ <;> simp only [exec, maintenanceSessions, goto, call] at h
    · cases h; exact .sessionsDone
    · repeat' split at h
      all_goals cases h
      · exact .expired (by simp_all) (by simp_all) (by simp_all) (by simp_all)
      · exact .unexpired (by simp_all)
  | executionWebsocket =>
    simp only [exec, executionWebsocket, call, fail, goto] at h
    split at h <;> cases h
    exacts [.presented ‹_›, .failed rfl rfl]
  | websocketHello =>
    simp only [exec, websocketHello, goto, call] at h
    split at h <;> cases h
    exacts [.helloFailed ‹_›, .greeted (by simp_all)]
  | websocketSnapshot =>
    simp only [exec, websocketSnapshot, goto] at h
    split at h <;> cases h
    exact .snapshot (by simp_all)
  | websocketSendSnapshot =>
    simp only [exec, websocketSendSnapshot, call] at h
    split at h <;> cases h
    exacts [.snapshotFailed ‹_›, .snapshotSent (by simp_all)]
  | websocketSendError =>
    simp only [exec, websocketSendError, goto] at h
    split at h <;> cases h
    exacts [.errorFailed ‹_›, .errorWritten (by simp_all)]
  | websocketClose j terminalActionSent =>
    cases terminalActionSent <;> cases h
    exacts [.disconnected, .closedAfterStop]
  | processWorkerStream =>
    simp only [exec, processWorkerStream, goto, call] at h
    repeat' split at h
    all_goals cases h
    all_goals first
      | exact .hungUp
      | exact .heartbeatRead (by simp_all)
      | exact .eventRead rfl (by simp_all)
      | exact .emptyRead rfl

end

end SmartC.Executor
