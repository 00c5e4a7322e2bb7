import SmartC.Executor.Task

/-!
# The operations of executor-api

One definition for every point of `Pc`: what the task does there to the shared
state, and where it stands afterwards. `none` means that the step cannot be
taken now: a lock is held by another task, or nothing has arrived.
-/

namespace SmartC.Executor

structure Outcome where
  shared : Shared
  pc : Pc
  frame : Option Frame

def goto (sh : Shared) (pc : Pc) : Option Outcome := some ⟨sh, pc, none⟩

/-- Call an operation and go on at `frame` when it returns. -/
def call (sh : Shared) (pc : Pc) (frame : Frame) : Option Outcome := some ⟨sh, pc, some frame⟩

def fail (sh : Shared) (e : ApiError) : Option Outcome := goto sh (.done (.apiError e))

def refuse (sh : Shared) (code : Code) (message : String) : Option Outcome :=
  goto sh (.done (.status ⟨code, message⟩))

/-! ### create_execution -/

def createExecution (env : Env) (sh : Shared) (request : CreateExecutionRequest) :
    Option Outcome :=
  match validateRequest request with
  | .error e => fail sh e
  | .ok () =>
    goto sh (.createExecutionInsert request
      (min (sh.unixNow + env.config.ticketTtl) (2 ^ 64 - 1)))

def createExecutionInsert (env : Env) (choice : Choice) (sh : Shared)
    (request : CreateExecutionRequest) (expiresUnix : Nat) : Option Outcome :=
  match choice with
  | .fresh id =>
    if id ∈ sh.created then none
    else if env.config.sessionCapacity ≤ sh.sessions.card then
      fail sh.countRejected (.tooManyRequests "execution_session_capacity_exceeded"
        "実行セッション数の上限に達しています。少し待ってから再試行してください")
    else
      goto { sh with
        data := Function.update sh.data id
          ⟨request.files, request.visitorId, request.clientIp, request.terminal, expiresUnix⟩
        inner := Function.update sh.inner id .new
        events := Function.update sh.events id []
        created := insert id sh.created
        sessions := insert id sh.sessions } (.createExecutionCount id)
  | _ => none

def createExecutionCount (sh : Shared) (id : Uuid) : Option Outcome :=
  goto { sh with metrics := { sh.metrics with createdTotal := sh.metrics.createdTotal + 1 } }
    (.done (.created id))

/-! ### consume_ticket -/

def consumeTicket (env : Env) (sh : Shared) (j : Uuid) (ticket : String) : Option Outcome :=
  match env.verify ticket j (sh.data j).visitorId sh.unixNow with
  | .error e => fail sh (.conflict "invalid_execution_ticket" e.text)
  | .ok () => goto sh (.consumeTicketInner j)

/-- Takes `session.inner` and keeps it. -/
def consumeTicketInner (t : Tid) (sh : Shared) (j : Uuid) : Option Outcome :=
  if sh.innerLock j ≠ none then none
  else if (sh.inner j).ticketConsumed then
    fail sh (.conflict "execution_ticket_already_used" "この接続チケットは既に使用されています")
  else if (sh.inner j).finished then
    fail sh (.conflict "execution_already_finished" "この実行は既に終了しています")
  else goto (sh.setInnerLock j (some t)) (.consumeTicketQueue j)

def consumeTicketQueue (t : Tid) (sh : Shared) (j : Uuid) : Option Outcome :=
  if sh.queueLock ≠ none then none
  else goto { sh with queueLock := some t } (.consumeTicketLimits j)

/-- With all three locks held: the checks, the reservation and the release of
the locks. -/
def consumeTicketLimits (env : Env) (sh : Shared) (j : Uuid) : Option Outcome :=
  let unlocked := { sh.setInnerLock j none with queueLock := none }
  let visitor := (sh.data j).visitorId
  let ip := (sh.data j).clientIp
  if env.config.queueCapacity ≤ sh.queue.length + sh.limits.pendingActivations then
    fail unlocked.countRejected (.tooManyRequests "execution_queue_full"
      "実行待ちが上限に達しています。少し待ってから再試行してください")
  else if env.config.visitorConcurrency ≤ (sh.limits.byVisitor visitor).getD 0 then
    fail unlocked.countRejected (.tooManyRequests "visitor_concurrency_exceeded"
      "このブラウザでは既に実行中のプログラムがあります")
  else if env.config.ipConcurrency ≤ (sh.limits.byIp ip).getD 0 then
    fail unlocked.countRejected (.tooManyRequests "ip_concurrency_exceeded"
      "この接続元では同時実行数の上限に達しています")
  else
    goto { unlocked.setInner j { sh.inner j with
        ticketConsumed := true, pendingActivation := true, limitsReserved := true } with
      limits := {
        byVisitor := increment sh.limits.byVisitor visitor
        byIp := increment sh.limits.byIp ip
        pendingActivations := sh.limits.pendingActivations + 1 } } (.done .unit)

/-! ### activate_session -/

def activateSession (sh : Shared) (j : Uuid) : Option Outcome :=
  if sh.innerLock j ≠ none then none
  else if !(sh.inner j).ticketConsumed || !(sh.inner j).pendingActivation
      || (sh.inner j).finished then
    fail sh (.conflict "execution_cannot_activate" "実行セッションを開始できません")
  else
    goto (sh.setInner j { sh.inner j with pendingActivation := false, socketConnected := true })
      (.activateSessionQueue j)

def activateSessionQueue (t : Tid) (sh : Shared) (j : Uuid) : Option Outcome :=
  if sh.queueLock ≠ none then none
  else goto { sh with queueLock := some t } (.activateSessionLimits j)

def activateSessionLimits (sh : Shared) (j : Uuid) : Option Outcome :=
  goto { sh with
    queueLock := none
    limits := { sh.limits with pendingActivations := sh.limits.pendingActivations - 1 }
    queue := sh.queue ++ [j] } (.activateSessionSend j (sh.queue.length + 1))

def activateSessionSend (sh : Shared) (j : Uuid) (position : Nat) : Option Outcome :=
  goto (sh.broadcast j (.text (.phase .queued (some position)))) (.activateSessionNotify position)

def activateSessionNotify (sh : Shared) (position : Nat) : Option Outcome :=
  goto sh.notifyOne (.done (.position position))

/-! ### send_stdin, resize, cancel_execution, resource_limit_execution -/

def sendStdin (sh : Shared) (j : Uuid) (data : Bytes) : Option Outcome :=
  if 8 * 1024 < data.length then
    fail sh (.tooLarge "stdinフレームは8KiB以下にしてください")
  else if sh.innerLock j ≠ none then none
  else if (sh.inner j).phase ≠ .running ∨ (sh.inner j).finished then
    fail sh (.conflict "execution_not_running" "プログラムが実行中のときだけ入力できます")
  else
    let next := saturatingAdd (sh.inner j).stdinBytes data.length
    if 64 * 1024 < next then fail sh (.tooLarge "stdinの累計上限64KiBを超えました")
    -- counted before it is sent, and not taken back if the send fails
    else goto (sh.setInner j { sh.inner j with stdinBytes := next }) (.sendCommand j (.stdin data))

def resize (sh : Shared) (j : Uuid) (cols rows : UInt16) : Option Outcome :=
  match validateTerminal ⟨cols, rows⟩ with
  | .error e => fail sh e
  | .ok () => goto sh (.sendCommand j (.resize cols.toUInt32 rows.toUInt32))

def stop (sh : Shared) (kind : StopKind) (j : Uuid) : Option Outcome :=
  if sh.innerLock j ≠ none then none
  else if (sh.inner j).finished then goto sh (.done .unit)
  else
    match (sh.inner j).assignedWorker with
    -- `inner` is released before the queue is cleared
    | none => goto sh (.stopQueue kind j)
    | some _ => goto sh (.sendCommand j (.cancel kind.commandReason))

def stopQueue (sh : Shared) (kind : StopKind) (j : Uuid) : Option Outcome :=
  if sh.queueLock ≠ none then none
  else
    call { sh with queue := sh.queue.filter (· ≠ j) }
      (.completeSession j ⟨kind.phase, none, none, kind.exitReason⟩ .finish) .stopped

def sendCommand (sh : Shared) (j : Uuid) (action : CommandAction) : Option Outcome :=
  if sh.innerLock j ≠ none then none
  else
    match (sh.inner j).assignedWorker with
    | none =>
      fail sh (.conflict "execution_not_assigned" "実行Workerがまだ割り当てられていません")
    | some w => goto sh (.sendCommandWorker j action w)

def sendCommandWorker (sh : Shared) (j : Uuid) (action : CommandAction) (w : String) :
    Option Outcome :=
  match sh.workers.lookup w with
  | none => fail sh workerUnavailable
  | some h => goto sh (.sendCommandSend j action w h.connectionId)

def sendCommandSend (sh : Shared) (j : Uuid) (action : CommandAction) (w : String) (c : Uuid) :
    Option Outcome :=
  match (sh.channel c).trySend (.command ⟨j, some action⟩) with
  | .ok ch => goto (sh.setChannel c ch) (.done .unit)
  | .error .full =>
    fail sh (.tooManyRequests "execution_command_backpressure" "端末への入力頻度が高すぎます")
  | .error .closed =>
    call sh (.unregisterWorker w c "実行Workerへの操作channelが閉じました") .sendCommandClosed

/-! ### register_worker, heartbeat -/

def registerWorker (env : Env) (choice : Choice) (sh : Shared) (r : WorkerRegistration)
    (capacity : Nat) : Option Outcome :=
  if r.workerId.isEmpty ∨ 128 < r.workerId.utf8ByteSize then
    refuse sh .invalidArgument "worker_idが不正です"
  else if r.architecture.isEmpty ∨ r.backend.isEmpty then
    refuse sh .invalidArgument "Worker能力が不足しています"
  else if env.config.requireNsjailWorkers ∧ r.backend ≠ "nsjail" then
    refuse sh .failedPrecondition "productionではNsJail Workerだけを登録できます"
  else
    match choice with
    | .fresh c =>
      if c ∈ sh.connections then none
      else if (sh.workers.lookup r.workerId).isSome then
        refuse sh .alreadyExists "同じworker_idの接続が既に存在します"
      else
        goto { (sh.setWorker r.workerId
            ⟨c, r.architecture, r.backend, none, none, sh.instant⟩).setChannel c
              ⟨capacity, [], 0, false⟩ with
          connections := insert c sh.connections } (.registerWorkerNotify c)
    | _ => none

def registerWorkerNotify (sh : Shared) (c : Uuid) : Option Outcome :=
  goto sh.notifyOne (.done (.connection c))

/-- The comparison of `heartbeat` between the worker's job and the reported one. -/
def WorkerHandle.checkReport (h : WorkerHandle) (now : Nat) (reported : Option JobIdText) :
    Except Status Unit :=
  match h.currentJob, reported with
  | some expected, some r =>
    if r = .canonical expected then .ok ()
    else .error ⟨.failedPrecondition, "Workerの現在ジョブがAPI状態と一致しません"⟩
  | some _, none => .error ⟨.failedPrecondition, "Workerの現在ジョブがAPI状態と一致しません"⟩
  | none, none => .ok ()
  | none, some r =>
    match h.recentlyCompletedJob with
    | some (job, at_) =>
      if r = .canonical job ∧ now - at_ ≤ seconds 5 then .ok ()
      else .error ⟨.failedPrecondition, "Workerが未割当のジョブを報告しました"⟩
    | none => .error ⟨.failedPrecondition, "Workerが未割当のジョブを報告しました"⟩

def heartbeat (sh : Shared) (w : String) (c : Uuid) (reported : Option JobIdText) :
    Option Outcome :=
  match sh.workers.lookup w with
  | none => refuse sh .failedPrecondition "未登録のWorkerです"
  | some h =>
    if h.connectionId ≠ c then
      refuse sh .failedPrecondition "Worker接続世代が現在の登録と一致しません"
    else
      match h.checkReport sh.instant reported with
      | .error s => goto sh (.done (.status s))
      | .ok () => goto (sh.setWorker w { h with lastSeen := sh.instant }) (.done .unit)

/-! ### handle_worker_event -/

def handleWorkerEvent (sh : Shared) (c : Uuid) (e : JobEvent) : Option Outcome :=
  match e.jobId.parse with
  | none => refuse sh .invalidArgument "job_idがUUIDではありません"
  | some j =>
    match sh.workers.lookup e.workerId with
    | none => refuse sh .failedPrecondition "未登録のWorkerです"
    | some h =>
      if h.connectionId ≠ c then
        refuse sh .failedPrecondition "Worker接続世代が現在の登録と一致しません"
      -- so a job that was completed meanwhile is no longer heard
      else if h.currentJob ≠ some j then
        refuse sh .failedPrecondition "割当と異なるジョブのイベントです"
      else
        goto { sh.setWorker e.workerId { h with lastSeen := sh.instant } with
          accepted := Function.update sh.accepted c (sh.accepted c ++ [e]) }
          (.handleWorkerEventSession j e.payload)

def handleWorkerEventSession (sh : Shared) (j : Uuid) (payload : Option EventPayload) :
    Option Outcome :=
  if j ∉ sh.sessions then refuse sh .notFound "実行セッションがありません"
  else
    match payload with
    | none => refuse sh .invalidArgument "イベント内容がありません"
    | some (.phase phase) => goto sh (.applyPhase j phase)
    | some (.compilerOutput stream data) => goto sh (.applyCompilerOutput j stream data)
    | some (.terminalOutput data) => goto sh (.applyTerminalOutput j data)
    | some (.exit code signal reason) =>
      match protocolExitReason reason with
      | none => refuse sh .invalidArgument "終了理由が不正です"
      | some r =>
        call sh (.completeSession j ⟨phaseForExit r, code, signal, r⟩ .finish) .exitApplied
    | some (.error code message retryable) => goto sh (.applyError j code message retryable)

def applyPhase (sh : Shared) (j : Uuid) (phase : Int) : Option Outcome :=
  match protocolPhase phase with
  | none => refuse sh .invalidArgument "実行フェーズが不正です"
  | some p =>
    if sh.innerLock j ≠ none then none
    else if (sh.inner j).finished then goto sh (.done .unit)
    else if !validTransition (sh.inner j).phase p then
      refuse sh .failedPrecondition "不正な実行フェーズ遷移です"
    else goto (sh.setInner j { sh.inner j with phase := p }) (.applyPhaseSend j p)

def applyPhaseSend (sh : Shared) (j : Uuid) (phase : ExecutionPhase) : Option Outcome :=
  goto (sh.broadcast j (.text (.phase phase none))) (.done .unit)

def compilerOutputLimitBytes : Nat := 256 * 1024
def terminalOutputLimitBytes : Nat := 1024 * 1024

def applyCompilerOutput (sh : Shared) (j : Uuid) (stream : Int) (data : Bytes) :
    Option Outcome :=
  if sh.innerLock j ≠ none then none
  else
    let total := saturatingAdd (sh.inner j).compilerOutputBytes data.length
    let counted := sh.setInner j { sh.inner j with compilerOutputBytes := total }
    -- the counter keeps the bytes of a block that is refused
    if compilerOutputLimitBytes < total then
      call counted (.cancelExecution j "compiler_output_limit")
        (.outputLimited "コンパイラ出力が上限を超えました")
    else goto counted (.applyCompilerOutputCount j stream data)

def applyCompilerOutputCount (sh : Shared) (j : Uuid) (stream : Int) (data : Bytes) :
    Option Outcome :=
  let counted := { sh with metrics := { sh.metrics with
    compilerOutputBytes := sh.metrics.compilerOutputBytes + data.length } }
  match protocolOutputStream stream with
  | none => refuse counted .invalidArgument "出力streamが不正です"
  | some s => goto counted (.applyCompilerOutputSend j s data)

def applyCompilerOutputSend (env : Env) (sh : Shared) (j : Uuid) (stream : OutputStream)
    (data : Bytes) : Option Outcome :=
  goto (sh.broadcast j (.text (.compilerOutput stream (env.fromUtf8Lossy data)))) (.done .unit)

def applyTerminalOutput (sh : Shared) (j : Uuid) (data : Bytes) : Option Outcome :=
  if sh.innerLock j ≠ none then none
  else
    let total := saturatingAdd (sh.inner j).terminalOutputBytes data.length
    let counted := sh.setInner j { sh.inner j with terminalOutputBytes := total }
    if terminalOutputLimitBytes < total then
      call counted (.cancelExecution j "terminal_output_limit")
        (.outputLimited "端末出力が上限を超えました")
    else goto counted (.applyTerminalOutputCount j data)

def applyTerminalOutputCount (sh : Shared) (j : Uuid) (data : Bytes) : Option Outcome :=
  goto { sh with metrics := { sh.metrics with
    terminalOutputBytes := sh.metrics.terminalOutputBytes + data.length } }
    (.applyTerminalOutputSend j data)

def applyTerminalOutputSend (sh : Shared) (j : Uuid) (data : Bytes) : Option Outcome :=
  goto (sh.broadcast j (.binary data)) (.done .unit)

def applyError (sh : Shared) (j : Uuid) (code message : String) (retryable : Bool) :
    Option Outcome :=
  goto (sh.broadcast j (.text (.error code message retryable))) (.done .unit)

end SmartC.Executor
