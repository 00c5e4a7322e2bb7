import SmartC.Executor.Operations

/-!
# Completion, dispatch and the tasks around them

The rest of `state.rs` (`complete_session`, `unregister_worker`, the
dispatcher and the maintenance task), `websocket_session` of `http.rs` and
`process_worker_stream` of `grpc.rs`, in the manner of
`SmartC.Executor.Operations`.
-/

namespace SmartC.Executor

/-! ### complete_session, release_limits -/

def completeSession (sh : Shared) (j : Uuid) (e : Completion) : CompleteAt → Option Outcome
  | .finish =>
    if sh.innerLock j ≠ none then none
    else if (sh.inner j).finished then goto sh (.done .unit)
    else
      goto (sh.setInner j { sh.inner j with
          phase := e.phase, finished := true, assignedWorker := none })
        (.completeSession j e (.sendPhase (sh.inner j).assignedWorker))
  -- `inner` is released here: from now on the session is finished, its messages are still to come
  | .sendPhase worker =>
    goto (sh.broadcast j (.text (.phase e.phase none))) (.completeSession j e (.sendExit worker))
  | .sendExit worker =>
    goto (sh.broadcast j (.text (.exit e.code e.signal e.reason)))
      (.completeSession j e (.releaseInner worker))
  | .releaseInner worker =>
    if sh.innerLock j ≠ none then none
    else if (sh.inner j).limitsReleased || !(sh.inner j).limitsReserved then
      goto sh (.completeSession j e (.freeWorker worker))
    else
      goto (sh.setInner j { sh.inner j with
          limitsReleased := true, pendingActivation := false, limitsReserved := false })
        (.completeSession j e (.releaseLimits worker (sh.inner j).pendingActivation))
  | .releaseLimits worker wasPending =>
    goto { sh with limits := {
        byVisitor := decrement sh.limits.byVisitor (sh.data j).visitorId
        byIp := decrement sh.limits.byIp (sh.data j).clientIp
        pendingActivations :=
          if wasPending then sh.limits.pendingActivations - 1
          else sh.limits.pendingActivations } }
      (.completeSession j e (.freeWorker worker))
  | .freeWorker none => goto sh (.completeSession j e .count)
  | .freeWorker (some w) =>
    match sh.workers.lookup w with
    | none => goto sh (.completeSession j e .count)
    | some h =>
      -- the worker may have been given another job, or the name another worker
      if h.currentJob = some j then
        goto (sh.setWorker w { h with
            currentJob := none, recentlyCompletedJob := some (j, sh.instant) })
          (.completeSession j e .count)
      else goto sh (.completeSession j e .count)
  | .count =>
    goto { sh with metrics := { sh.metrics with
        completedTotal := sh.metrics.completedTotal + 1 } } (.completeSession j e .remove)
  | .remove =>
    goto { sh with sessions := sh.sessions.erase j } (.completeSession j e .notify)
  | .notify => goto sh.notifyOne (.done .unit)

/-! ### unregister_worker -/

def unregisterWorker (sh : Shared) (w : String) (c : Uuid) (detail : String) : Option Outcome :=
  match sh.workers.lookup w with
  | none => goto sh (.done .unit)
  | some h =>
    -- a handler that is late does not remove the worker that has registered since
    if h.connectionId = c then
      goto { sh with workers := sh.workers.erase w } (.unregisterWorkerCount h.currentJob detail)
    else goto sh (.done .unit)

def unregisterWorkerCount (sh : Shared) (job : Option Uuid) (detail : String) : Option Outcome :=
  let counted := { sh with metrics := { sh.metrics with
    workerDisconnectsTotal := sh.metrics.workerDisconnectsTotal + 1 } }
  match job with
  | none => goto counted .unregisterWorkerNotify
  | some j => goto counted (.unregisterWorkerSession j detail)

def unregisterWorkerSession (sh : Shared) (j : Uuid) (detail : String) : Option Outcome :=
  if j ∈ sh.sessions then goto sh (.unregisterWorkerSend j detail)
  else goto sh .unregisterWorkerNotify

def unregisterWorkerSend (sh : Shared) (j : Uuid) (detail : String) : Option Outcome :=
  call (sh.broadcast j (.text (.error "worker_disconnected" detail true)))
    (.completeSession j ⟨.exited, none, none, .internalError⟩ .finish) .unregisterWorkerNotify

def unregisterWorkerNotify (sh : Shared) : Option Outcome := goto sh.notifyOne (.done .unit)

/-! ### run_dispatcher, try_dispatch_one -/

def dispatchPop (sh : Shared) : Option Outcome :=
  if sh.queueLock ≠ none then none
  else
    match sh.queue with
    | [] => goto sh .dispatchAwait
    | j :: rest => goto { sh with queue := rest } (.dispatchSession j)

def dispatchSession (sh : Shared) (j : Uuid) : Option Outcome :=
  if j ∈ sh.sessions then goto sh (.dispatchInner j) else goto sh .dispatchPop

/-- Takes `session.inner` and keeps it. -/
def dispatchInner (t : Tid) (sh : Shared) (j : Uuid) : Option Outcome :=
  if sh.innerLock j ≠ none then none
  else if (sh.inner j).finished then goto sh .dispatchPop
  else goto (sh.setInnerLock j (some t)) (.dispatchWorkers j)

/-- With `session.inner` held, under the `workers` lock. The candidate is any
worker without a job: `find` meets them in the order of the hash map. -/
def dispatchWorkers (env : Env) (choice : Choice) (sh : Shared) (j : Uuid) : Option Outcome :=
  let unlocked := sh.setInnerLock j none
  if env.config.globalConcurrency ≤ sh.busy then goto unlocked (.dispatchPushFront j none)
  else
    match choice with
    | .candidate w =>
      match sh.workers.lookup w with
      | none => none
      | some h =>
        if h.currentJob ≠ none then none
        else
          match (sh.channel h.connectionId).trySend (.assignment (sh.assignment j)) with
          | .ok ch =>
            goto (((unlocked.setChannel h.connectionId ch).setWorker w
              { h with currentJob := some j }).setInner j
                { sh.inner j with assignedWorker := some w }) .dispatchPop
          -- full or closed: the job goes back and the worker is unregistered
          | .error _ => goto unlocked (.dispatchPushFront j (some (w, h.connectionId)))
    | _ =>
      -- no candidate is named, so there must be none
      if sh.workers.entries.all fun e => e.2.currentJob.isSome then
        goto unlocked (.dispatchPushFront j none)
      else none

def dispatchPushFront (sh : Shared) (j : Uuid) (failed : Option (String × Uuid)) :
    Option Outcome :=
  if sh.queueLock ≠ none then none
  else
    let pushed := { sh with queue := j :: sh.queue }
    match failed with
    | none => goto pushed .dispatchAwait
    | some (w, c) =>
      call pushed (.unregisterWorker w c "実行Workerへの割当送信が滞留しました") .dispatchLoop

/-- The first poll of `notified`. -/
def dispatchAwait (sh : Shared) : Option Outcome :=
  if sh.notify.permit then goto { sh with notify := { sh.notify with permit := false } } .dispatchPop
  else goto { sh with notify := { sh.notify with waiter := .waiting } } .dispatchParked

def dispatchParked (sh : Shared) : Option Outcome :=
  match sh.notify.waiter with
  | .notified => goto { sh with notify := { sh.notify with waiter := .absent } } .dispatchPop
  | .absent | .waiting => none

/-! ### maintenance_once -/

def Shared.staleWorkers (env : Env) (sh : Shared) : List (String × Uuid) :=
  (sh.workers.entries.filter fun e =>
    env.config.workerStaleAfter < sh.instant - e.2.lastSeen).map fun e => (e.1, e.2.connectionId)

def maintenanceOnce (env : Env) (choice : Choice) (sh : Shared) : Option Outcome :=
  match choice with
  | .stale ws =>
    if ws.Perm (sh.staleWorkers env) then goto sh (.maintenanceWorkers ws) else none
  | _ => none

def maintenanceWorkers (sh : Shared) : List (String × Uuid) → Option Outcome
  | [] => goto sh .maintenanceNow
  | (w, c) :: rest =>
    call sh (.unregisterWorker w c "実行Workerのheartbeatが途絶えました") (.maintenanceWorkers rest)

def maintenanceNow (choice : Choice) (sh : Shared) : Option Outcome :=
  match choice with
  | .order js =>
    if js.Nodup ∧ js.toFinset = sh.sessions then goto sh (.maintenanceSessions sh.unixNow js)
    else none
  | _ => none

def maintenanceSessions (sh : Shared) (now : Nat) : List Uuid → Option Outcome
  | [] => goto sh (.done .unit)
  | j :: rest =>
    if sh.innerLock j ≠ none then none
    else if !(sh.inner j).socketConnected && !(sh.inner j).finished
        && decide ((sh.data j).ticketExpiresUnix ≤ now) then
      call sh (.cancelExecution j "ticket_expired") (.maintenanceSessions now rest)
    else goto sh (.maintenanceSessions now rest)

/-! ### websocket_session -/

def Shared.nowSeconds (sh : Shared) : ℚ := (sh.instant : ℚ) / 1000000000

/-- The lookup of `execution_websocket` before it consumes the ticket. -/
def executionWebsocket (sh : Shared) (j : Uuid) (ticket : String) : Option Outcome :=
  if j ∈ sh.sessions then call sh (.consumeTicket j ticket) (.executionWebsocket j)
  else fail sh .notFound

def websocketSession (sh : Shared) (j : Uuid) : Option Outcome :=
  goto sh (.websocketHello ⟨j, (sh.events j).length, .new sh.nowSeconds⟩)

def websocketHello (choice : Choice) (sh : Shared) (s : Socket) : Option Outcome :=
  if choice.writeFailed then
    call sh (.cancelExecution s.session "websocket_disconnected") (.websocketReturn s.session false)
  else goto sh (.websocketSnapshot s)

def websocketSnapshot (sh : Shared) (s : Socket) : Option Outcome :=
  if sh.innerLock s.session ≠ none then none
  else goto sh (.websocketSendSnapshot s (sh.inner s.session).phase)

def websocketSendSnapshot (choice : Choice) (sh : Shared) (s : Socket) : Option Outcome :=
  if choice.writeFailed then
    call sh (.cancelExecution s.session "websocket_disconnected") (.websocketReturn s.session false)
  else call sh (.activateSession s.session) (.websocketActivated s)

def websocketRefused (sh : Shared) (j : Uuid) : Option Outcome :=
  call sh (.cancelExecution j "activation_failed") (.websocketReturn j false)

/-- `handle_client_message`; `written` is the result of answering a ping. -/
def handleClientMessage (sh : Shared) (s : Socket) (written : Bool) :
    ClientMessage → Option Outcome
  | .binary data => call sh (.sendStdin s.session data) (.websocketHandled s)
  | .text length control =>
    if 4 * 1024 < length then
      goto sh (.websocketSendError s (.tooLarge "制御メッセージは4KiB以下にしてください"))
    else
      match control with
      | .error e =>
        goto sh (.websocketSendError s
          (.badRequest "invalid_control_message" ("制御メッセージが不正です: " ++ e)))
      | .ok (.resize cols rows) => call sh (.resize s.session cols rows) (.websocketHandled s)
      | .ok .terminate =>
        call sh (.cancelExecution s.session "user_terminated") (.websocketHandled s)
      | .ok (.ping nonce) =>
        if 128 < nonce.utf8ByteSize then
          goto sh (.websocketSendError s
            (.badRequest "ping_nonce_invalid" "ping nonceは128文字以下にしてください"))
        else pong
  | .ping => pong
  | .pong => goto sh (.websocketSelect s)
  | .close =>
    goto sh (.websocketSendError s (.conflict "websocket_closed" "WebSocketが閉じられました"))
where
  pong : Option Outcome :=
    if written then goto sh (.websocketSelect s)
    else goto sh (.websocketSendError s
      (.unavailable "websocket_send_failed" "WebSocketへ応答できません"))

/-- One turn of the select loop. The receiver lags when more than the 256
events of the broadcast channel are waiting for it. -/
def websocketSelect (choice : Choice) (sh : Shared) (s : Socket) : Option Outcome :=
  match choice with
  | .event written =>
    if 256 < (sh.events s.session).length - s.position then
      call sh (.cancelExecution s.session "client_too_slow") (.websocketBreak s.session)
    else
      match (sh.events s.session)[s.position]? with
      | none => none
      | some e =>
        -- after an exit the socket is closed, too
        if !written || e.closesSocket then goto sh (.websocketClose s.session false)
        else goto sh (.websocketSelect { s with position := s.position + 1 })
  | .incoming none _ => goto sh (.websocketClose s.session false)
  | .incoming (some m) written =>
    let (allowed, limiter) := s.limiter.allowAt sh.nowSeconds
    if allowed then handleClientMessage sh { s with limiter := limiter } written m
    else
      call sh (.resourceLimitExecution s.session "client_message_rate")
        (.websocketRateLimited s.session)
  | _ => none

def websocketSendError (choice : Choice) (sh : Shared) (s : Socket) : Option Outcome :=
  if choice.writeFailed then goto sh (.websocketClose s.session false)
  else goto sh (.websocketSelect s)

def websocketClose (sh : Shared) (j : Uuid) (terminalActionSent : Bool) : Option Outcome :=
  if terminalActionSent then goto sh (.done (.websocket j true))
  else call sh (.cancelExecution j "websocket_disconnected") (.websocketReturn j true)

/-! ### process_worker_stream -/

def processWorkerStream (choice : Choice) (sh : Shared) (w : String) (c : Uuid) :
    Option Outcome :=
  let hangUp := goto sh (.unregisterWorker w c "実行WorkerとのgRPC接続が切断されました")
  match choice with
  | .inbound none => hangUp
  | .inbound (some (.registration _)) => hangUp
  | .inbound (some (.heartbeat workerId reported)) =>
    if workerId ≠ w then hangUp else call sh (.heartbeat w c reported) (.processWorkerStream w c)
  | .inbound (some (.event e)) =>
    if e.workerId ≠ w then hangUp else call sh (.handleWorkerEvent c e) (.processWorkerStream w c)
  -- a message without a payload is skipped
  | .inbound (some .empty) => goto sh (.processWorkerStream w c)
  | _ => none

end SmartC.Executor
