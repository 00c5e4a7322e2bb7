import SmartC.Executor.Model
import SmartC.Transition

/-!
# One job of a worker

`execute_assignment` of `execution.rs` with everything it runs: the two compile
stages, the PTY stage with its writer thread, and the report of an error. A
`Job` is interrupted at every `await`; what the world decides there (which
branch of a `select!` is ready, what the child process does, whether a message
to the API is enqueued in time) is a `JobChoice`.
-/

namespace SmartC.Worker

/-! ### The protocol's enumerations -/

inductive JobPhase
  | unspecified | queued | compiling | compileFailed | running | exited | timedOut
  | resourceLimited | cancelled | sandboxViolation
  deriving DecidableEq, Repr

def JobPhase.code : JobPhase → Int
  | .unspecified => 0
  | .queued => 1
  | .compiling => 2
  | .compileFailed => 3
  | .running => 4
  | .exited => 5
  | .timedOut => 6
  | .resourceLimited => 7
  | .cancelled => 8
  | .sandboxViolation => 9

inductive ExitReason
  | unspecified | completed | compileFailed | timedOut | resourceLimited | cancelled
  | sandboxViolation | internalError
  deriving DecidableEq, Repr

def ExitReason.code : ExitReason → Int
  | .unspecified => 0
  | .completed => 1
  | .compileFailed => 2
  | .timedOut => 3
  | .resourceLimited => 4
  | .cancelled => 5
  | .sandboxViolation => 6
  | .internalError => 7

inductive OutputStream
  | stdout | stderr
  deriving DecidableEq, Repr

def OutputStream.code : OutputStream → Int
  | .stdout => 1
  | .stderr => 2

/-! ### Errors -/

inductive ExecutionError
  | invalidAssignment (detail : String)
  | io (detail : String)
  | spawn (program source : String)
  | missingPipe (pipe : String)
  | pty (detail : String)
  | thread (detail : String)
  | apiDisconnected
  | apiBackpressure
  deriving DecidableEq, Repr

namespace ExecutionError

def code : ExecutionError → String
  | .invalidAssignment _ => "invalid_assignment"
  | .io _ => "workspace_io_failed"
  | .spawn .. => "process_spawn_failed"
  | .missingPipe _ => "process_pipe_missing"
  | .pty _ => "pty_failed"
  | .thread _ => "pty_thread_failed"
  | .apiDisconnected => "api_disconnected"
  | .apiBackpressure => "api_backpressure"

def text : ExecutionError → String
  | .invalidAssignment detail => "実行割当が不正です: " ++ detail
  | .io detail => "workspace操作に失敗しました: " ++ detail
  | .spawn program source => program ++ " を起動できません: " ++ source
  | .missingPipe pipe => "子プロセスの" ++ pipe ++ " pipeがありません"
  | .pty detail => "PTY操作に失敗しました: " ++ detail
  | .thread detail => "PTY reader threadを作れません: " ++ detail
  | .apiDisconnected => "executor-apiとの接続が切断されました"
  | .apiBackpressure => "executor-apiへの送信が250ms以内に完了しません"

def retryable : ExecutionError → Bool
  | .invalidAssignment _ => false
  | _ => true

end ExecutionError

/-! ### The assignment -/

structure WorkerConfig where
  compileOutputLimit : Nat
  runtimeOutputLimit : Nat
  deriving Repr

/-- The limits of `WorkerConfig::for_test`, which are those of `from_env`. -/
def WorkerConfig.forTest : WorkerConfig := ⟨256 * 1024, 1024 * 1024⟩

/-- A `JobAssignment` as the worker receives it, with its id as a text. -/
structure Assignment where
  jobId : JobIdText
  terminalCols : UInt32
  terminalRows : UInt32
  files : List ProtocolSourceFile
  deriving DecidableEq, Repr

def Assignment.received (a : JobAssignment) : Assignment :=
  ⟨.canonical a.jobId, a.terminalCols, a.terminalRows, a.files⟩

/-- The loop of `validate_source_files`: the lowercased names seen so far, the total size and
whether `main.c` was met. -/
def validateFiles (names : List String) (totalBytes : Nat) (hasMain : Bool) :
    List ProtocolSourceFile → Except ExecutionError (Nat × Bool)
  | [] => .ok (totalBytes, hasMain)
  | file :: rest =>
    if !isValidSourceFileName file.name then
      .error (.invalidAssignment "安全な.cまたは.hのファイル名を指定してください")
    else if names.contains (Executor.toAsciiLowercase file.name) then
      .error (.invalidAssignment "同じファイル名を複数指定できません")
    else if file.content.contains 0 then
      .error (.invalidAssignment "ファイル内容にNUL文字は使用できません")
    else
      validateFiles (Executor.toAsciiLowercase file.name :: names)
        (saturatingAdd totalBytes file.content.length) (hasMain || file.name == "main.c") rest

def validateSourceFiles (files : List ProtocolSourceFile) : Except ExecutionError Unit :=
  if files.isEmpty ∨ sourceFileMaxCount < files.length then
    .error (.invalidAssignment "filesは1〜16件にしてください")
  else
    match validateFiles [] 0 false files with
    | .error e => .error e
    | .ok (totalBytes, hasMain) =>
      if !hasMain then .error (.invalidAssignment "main.cは必須です")
      else if totalBytes = 0 ∨ sourceFilesMaxBytes < totalBytes then
        .error (.invalidAssignment "全ファイルの合計は1〜65536バイトにしてください")
      else .ok ()

structure Dimensions where
  cols : UInt16
  rows : UInt16
  deriving DecidableEq, Repr

def tryU16 (n : UInt32) : Option UInt16 := if n.toNat < 2 ^ 16 then some n.toUInt16 else none

def isTerminalSize (cols rows : UInt16) : Bool :=
  decide (20 ≤ cols ∧ cols ≤ 240) && decide (5 ≤ rows ∧ rows ≤ 80)

def Dimensions.tryFromAssignment (a : Assignment) : Except ExecutionError Dimensions :=
  match tryU16 a.terminalCols with
  | none => .error (.invalidAssignment "terminal colsが不正です")
  | some cols =>
    match tryU16 a.terminalRows with
    | none => .error (.invalidAssignment "terminal rowsが不正です")
    | some rows =>
      if isTerminalSize cols rows then .ok ⟨cols, rows⟩
      else .error (.invalidAssignment "端末サイズが許可範囲外です")

/-! ### How a program ends -/

inductive CompileOutcome
  | exited (code : Option Int)
  | timedOut
  | outputLimited
  | resourceLimited
  | cancelled
  deriving DecidableEq, Repr

inductive RuntimeReason
  | completed | timedOut | resourceLimited | cancelled | sandboxViolation
  deriving DecidableEq, Repr

structure RuntimeOutcome where
  code : Option Int
  signal : Option Int
  reason : RuntimeReason
  deriving DecidableEq, Repr

structure ProcessExit where
  code : Option Int
  signal : Option Int
  deriving DecidableEq, Repr

structure PtyExitStatus where
  exitCode : UInt32
  signal : Option String
  deriving DecidableEq, Repr

def parseI32 (s : String) : Option Int :=
  let digits (cs : List Char) : Option Nat :=
    if cs.isEmpty ∨ !cs.all Char.isDigit then none
    else some (cs.foldl (fun n c => n * 10 + (c.toNat - '0'.toNat)) 0)
  match s.toList with
  | '-' :: cs => (digits cs).bind fun n => if n ≤ 2 ^ 31 then some (-(n : Int)) else none
  | '+' :: cs => (digits cs).bind fun n => if n < 2 ^ 31 then some (n : Int) else none
  | cs => (digits cs).bind fun n => if n < 2 ^ 31 then some (n : Int) else none

def signalNumber (name : String) : Option Int :=
  match name with
  | "Hangup" | "SIGHUP" => some 1
  | "Interrupt" | "SIGINT" => some 2
  | "Quit" | "SIGQUIT" => some 3
  | "Illegal instruction" | "SIGILL" => some 4
  | "Aborted" | "SIGABRT" => some 6
  | "Bus error" | "SIGBUS" => some 7
  | "Floating point exception" | "SIGFPE" => some 8
  | "Killed" | "SIGKILL" => some 9
  | "Segmentation fault" | "SIGSEGV" => some 11
  | "Broken pipe" | "SIGPIPE" => some 13
  | "Terminated" | "SIGTERM" => some 15
  | "CPU time limit exceeded" | "SIGXCPU" => some 24
  | "File size limit exceeded" | "SIGXFSZ" => some 25
  | "Bad system call" | "SIGSYS" => some 31
  | _ =>
    if "Signal ".toList.isPrefixOf name.toList then parseI32 (String.ofList (name.toList.drop 7))
    else none

def processExitStatus (status : PtyExitStatus) : ProcessExit :=
  match status.signal with
  | some signal => ⟨none, signalNumber signal⟩
  | none => ⟨some (min status.exitCode.toNat (2 ^ 31 - 1) : Nat), none⟩

def classifyRuntimeExit (exit : ProcessExit) : RuntimeOutcome :=
  let reason : RuntimeReason :=
    if exit.code = some 159 ∨ exit.signal = some 31 then .sandboxViolation
    else if exit.code ∈ [some 137, some 152, some 153] ∨
        exit.signal ∈ [some 9, some 24, some 25] then .resourceLimited
    else .completed
  ⟨exit.code, exit.signal, reason⟩

/-! ### The job -/

inductive JobControl
  | input (data : Bytes)
  | resize (cols rows : UInt16)
  | resourceLimit
  | cancel
  deriving DecidableEq, Repr

structure CompileLoop where
  bytesSent : Nat
  pipesClosed : Nat
  exitCode : Option (Option Int)
  deriving DecidableEq, Repr

structure RuntimeLoop where
  bytesSent : Nat
  processExit : Option ProcessExit
  deriving DecidableEq, Repr

/-- The point before the next `await`. The stage of `run_compile_process` is `false` for the
compiler and `true` for the linker; `sendPhase` and `sendExit` are the two messages with which
every run of `execute_inner` ends that does not fail. -/
inductive JobAt
  | prepare
  | sendCompiling
  | compileStage (link : Bool)
  | compileSpawn (link : Bool)
  | compile (link : Bool) (loop : CompileLoop)
  | sendCompilerOutput (link : Bool) (loop : CompileLoop) (stream : OutputStream) (data : Bytes)
  | sendRunning
  | openPty
  | run (loop : RuntimeLoop)
  | sendTerminalOutput (loop : RuntimeLoop) (data : Bytes)
  | sendPhase (phase : JobPhase) (code signal : Option Int) (reason : ExitReason)
  | sendExit (code signal : Option Int) (reason : ExitReason)
  | sendError (error : ExecutionError)
  | sendErrorExit
  | returned
  deriving DecidableEq, Repr

/-- The thread that writes to the PTY: the blocks its channel ever accepted, how many of them
it has taken out, and the error it stopped with. -/
structure PtyWriter where
  blocks : List Bytes
  taken : Nat
  failed : Option String
  deriving DecidableEq, Repr

/-- `controls` is what waits in the control channel, `controlsClosed` that its sender is gone,
and `sent` are the events enqueued for the API. -/
structure Job where
  assignment : Assignment
  pc : JobAt
  dimensions : Dimensions
  controls : List JobControl
  controlsClosed : Bool
  sent : List EventPayload
  writer : PtyWriter
  deriving DecidableEq, Repr

def Job.new (a : Assignment) : Job where
  assignment := a
  pc := .prepare
  dimensions := ⟨0, 0⟩
  controls := []
  controlsClosed := false
  sent := []
  writer := ⟨[], 0, none⟩

inductive SendResult
  | sent | backpressure | disconnected
  deriving DecidableEq, Repr

inductive PipeEvent
  | data (stream : OutputStream) (data : Bytes)
  | closed
  deriving DecidableEq, Repr

inductive PtyReadEvent
  | data (data : Bytes)
  | closed
  | failed (error : String)
  deriving DecidableEq, Repr

inductive JobChoice
  /-- The workspace is created and written, or fails with an I/O error. -/
  | workspace (error : Option String)
  | send (result : SendResult)
  /-- Whether nothing is left of the compile timeout. -/
  | remaining (zero : Bool)
  /-- The process and what belongs to it is set up, or fails. -/
  | spawn (error : Option ExecutionError)
  | deadline
  | drained
  /-- A control is received; `resizeError` is what `master.resize` would fail with. -/
  | control (resizeError : Option String)
  | pipe (event : Option PipeEvent)
  | exitCode (status : Except String (Option (Option Int)))
  | read (event : Option PtyReadEvent)
  /-- The report of the writer thread, or its end without a report, and what `try_wait` then
  gives. -/
  | writeFailed (gone : Bool) (status : Except String (Option PtyExitStatus))
  | exitStatus (status : Except String (Option PtyExitStatus))

inductive JobAction
  | run (choice : JobChoice)
  /-- The client delivers a control. -/
  | deliver (control : JobControl)
  /-- The client drops its sender. -/
  | dropControls
  /-- The writer thread takes the next block and writes it, or fails. -/
  | write (error : Option String)

/-! ### execute_inner -/

namespace Job

def fail (job : Job) (error : ExecutionError) : Job := { job with pc := .sendError error }

def goto (job : Job) (pc : JobAt) : Job := { job with pc := pc }

/-- `send_payload`, and where the job goes on when the event is enqueued. -/
def sendPayload (job : Job) (payload : EventPayload) (next : JobAt) : SendResult → Job
  | .sent => { job with sent := job.sent ++ [payload], pc := next }
  | .backpressure => job.fail .apiBackpressure
  | .disconnected => job.fail .apiDisconnected

def finishCompileLimit (reason : ExitReason) : JobAt :=
  let phase : JobPhase := match reason with
    | .timedOut => .timedOut
    | .resourceLimited => .resourceLimited
    | _ => .compileFailed
  .sendPhase phase none none reason

/-- The `match` on the result of `run_compile_process`. -/
def afterCompile (link : Bool) : CompileOutcome → JobAt
  | .exited (some 0) => if link then .sendRunning else .compileStage true
  | .exited code => .sendPhase .compileFailed code none .compileFailed
  | .timedOut => finishCompileLimit .timedOut
  | .outputLimited | .resourceLimited => finishCompileLimit .resourceLimited
  | .cancelled => .sendPhase .cancelled none none .cancelled

/-- The `match` on the reason with which `run_pty_process` returned. -/
def afterRuntime (outcome : RuntimeOutcome) : JobAt :=
  let (phase, reason) : JobPhase × ExitReason := match outcome.reason with
    | .completed => (.exited, .completed)
    | .timedOut => (.timedOut, .timedOut)
    | .resourceLimited => (.resourceLimited, .resourceLimited)
    | .cancelled => (.cancelled, .cancelled)
    | .sandboxViolation => (.sandboxViolation, .sandboxViolation)
  .sendPhase phase outcome.code outcome.signal reason

def prepare (job : Job) (error : Option String) : Job :=
  match job.assignment.jobId.parse with
  | none => job.fail (.invalidAssignment "job_idがUUIDではありません")
  | some _ =>
    match validateSourceFiles job.assignment.files with
    | .error e => job.fail e
    | .ok () =>
      match Dimensions.tryFromAssignment job.assignment with
      | .error e => job.fail e
      | .ok dimensions =>
        match error with
        | some detail => job.fail (.io detail)
        | none => { job with dimensions := dimensions, pc := .sendCompiling }

/-! ### run_compile_process -/

def compileControl (job : Job) (link : Bool) (loop : CompileLoop) : Option Job :=
  match job.controls with
  | [] => if job.controlsClosed then some (job.goto (afterCompile link .cancelled)) else none
  | control :: rest =>
    let job := { job with controls := rest }
    match control with
    | .cancel => some (job.goto (afterCompile link .cancelled))
    | .resourceLimit => some (job.goto (afterCompile link .resourceLimited))
    | .resize cols rows => some { job with dimensions := ⟨cols, rows⟩, pc := .compile link loop }
    | .input _ => some (job.goto (.compile link loop))

/-- One turn of the `select!` loop. -/
def compile (config : WorkerConfig) (job : Job) (link : Bool) (loop : CompileLoop) :
    JobChoice → Option Job
  | .deadline =>
    if loop.exitCode.isNone then some (job.goto (afterCompile link .timedOut)) else none
  | .drained =>
    match loop.exitCode with
    | some code => some (job.goto (afterCompile link (.exited code)))
    | none => none
  -- controls are read only while the process runs
  | .control _ => if loop.exitCode.isNone then job.compileControl link loop else none
  | .pipe (some (.data stream data)) =>
    let bytesSent := saturatingAdd loop.bytesSent data.length
    if config.compileOutputLimit < bytesSent then
      some (job.goto (afterCompile link .outputLimited))
    else
      some (job.goto (.sendCompilerOutput link { loop with bytesSent := bytesSent } stream data))
  -- `saturating_add` of a `u8`
  | .pipe (some .closed) =>
    let loop := { loop with pipesClosed := min (loop.pipesClosed + 1) 255 }
    match loop.exitCode with
    | some code =>
      if 2 ≤ loop.pipesClosed then some (job.goto (afterCompile link (.exited code)))
      else some (job.goto (.compile link loop))
    | none => some (job.goto (.compile link loop))
  | .pipe none =>
    match loop.exitCode with
    | some code => some (job.goto (afterCompile link (.exited code)))
    | none => some (job.goto (.compile link loop))
  | .exitCode status =>
    if loop.exitCode.isSome then none
    else
      match status with
      | .error detail => some (job.fail (.io detail))
      | .ok none => some (job.goto (.compile link loop))
      | .ok (some code) =>
        if 2 ≤ loop.pipesClosed then some (job.goto (afterCompile link (.exited code)))
        else some (job.goto (.compile link { loop with exitCode := some code }))
  | _ => none

/-! ### run_pty_process -/

def finishRuntime (job : Job) (reason : RuntimeReason) : Job :=
  job.goto (afterRuntime ⟨none, none, reason⟩)

/-- `writer_sender.try_send`, whose channel holds eight blocks. -/
def input (job : Job) (loop : RuntimeLoop) (data : Bytes) : Job :=
  if job.writer.failed.isSome then job.fail (.pty "PTY stdin writerが終了しました")
  else if 8 ≤ job.writer.blocks.length - job.writer.taken then job.finishRuntime .resourceLimited
  else { job with
    writer := { job.writer with blocks := job.writer.blocks ++ [data] }
    pc := .run loop }

def runControl (job : Job) (loop : RuntimeLoop) (resizeError : Option String) : Option Job :=
  match job.controls with
  | [] => if job.controlsClosed then some (job.finishRuntime .cancelled) else none
  | control :: rest =>
    let job := { job with controls := rest }
    match control with
    | .input data => some (job.input loop data)
    | .resize _ _ =>
      match resizeError with
      | some detail => some (job.fail (.pty detail))
      | none => some (job.goto (.run loop))
    | .cancel => some (job.finishRuntime .cancelled)
    | .resourceLimit => some (job.finishRuntime .resourceLimited)

/-- One turn of the `select!` loop. -/
def run (config : WorkerConfig) (job : Job) (loop : RuntimeLoop) : JobChoice → Option Job
  | .deadline => if loop.processExit.isNone then some (job.finishRuntime .timedOut) else none
  | .drained => loop.processExit.map fun exit => job.goto (afterRuntime (classifyRuntimeExit exit))
  | .control resizeError =>
    if loop.processExit.isNone then job.runControl loop resizeError else none
  | .read (some (.data data)) =>
    let bytesSent := saturatingAdd loop.bytesSent data.length
    if config.runtimeOutputLimit < bytesSent then some (job.finishRuntime .resourceLimited)
    else some (job.goto (.sendTerminalOutput { loop with bytesSent := bytesSent } data))
  -- after the exit a read error is the usual end of a PTY
  | .read (some (.failed error)) =>
    if loop.processExit.isNone then some (job.fail (.pty error)) else some (job.goto (.run loop))
  | .read _ =>
    match loop.processExit with
    | some exit => some (job.goto (afterRuntime (classifyRuntimeExit exit)))
    | none => some (job.goto (.run loop))
  | .writeFailed gone status =>
    if loop.processExit.isSome then none
    else if gone then some (job.fail (.pty "PTY stdin writer threadが終了しました"))
    else
      match job.writer.failed with
      | none => none
      | some error =>
        match status with
        | .error detail => some (job.fail (.pty detail))
        | .ok (some status) =>
          some (job.goto (afterRuntime (classifyRuntimeExit (processExitStatus status))))
        | .ok none => some (job.fail (.pty error))
  | .exitStatus status =>
    if loop.processExit.isSome then none
    else
      match status with
      | .error detail => some (job.fail (.pty detail))
      | .ok none => some (job.goto (.run loop))
      | .ok (some status) =>
        some (job.goto (.run { loop with processExit := some (processExitStatus status) }))
  | _ => none

/-! ### execute_assignment -/

def errorEvent (error : ExecutionError) : EventPayload :=
  .error error.code error.text error.retryable

def errorExit : EventPayload := .exit none none ExitReason.internalError.code

def sendIgnored (job : Job) (payload : EventPayload) (next : JobAt) (result : SendResult) : Job :=
  { job with sent := if result = .sent then job.sent ++ [payload] else job.sent, pc := next }

def execute (config : WorkerConfig) (job : Job) (choice : JobChoice) : Option Job :=
  match job.pc, choice with
  | .prepare, .workspace error => some (job.prepare error)
  | .sendCompiling, .send result =>
    some (job.sendPayload (.phase JobPhase.compiling.code) (.compileStage false) result)
  | .compileStage link, .remaining zero =>
    some (job.goto (if zero then finishCompileLimit .timedOut else .compileSpawn link))
  | .compileSpawn link, .spawn error =>
    match error with
    | some e => some (job.fail e)
    | none => some (job.goto (.compile link ⟨0, 0, none⟩))
  | .compile link loop, choice => job.compile config link loop choice
  | .sendCompilerOutput link loop stream data, .send result =>
    some (job.sendPayload (.compilerOutput stream.code data) (.compile link loop) result)
  | .sendRunning, .send result =>
    some (job.sendPayload (.phase JobPhase.running.code) .openPty result)
  | .openPty, .spawn error =>
    match error with
    | some e => some (job.fail e)
    | none => some (job.goto (.run ⟨0, none⟩))
  | .run loop, choice => job.run config loop choice
  | .sendTerminalOutput loop data, .send result =>
    some (job.sendPayload (.terminalOutput data) (.run loop) result)
  | .sendPhase phase code signal reason, .send result =>
    some (job.sendPayload (.phase phase.code) (.sendExit code signal reason) result)
  | .sendExit code signal reason, .send result =>
    some (job.sendPayload (.exit code signal reason.code) .returned result)
  -- the two messages after an error; whether they are enqueued is ignored
  | .sendError error, .send result =>
    some (job.sendIgnored (errorEvent error) .sendErrorExit result)
  | .sendErrorExit, .send result => some (job.sendIgnored errorExit .returned result)
  | _, _ => none

/-- The control channel holds 64 controls, and its receiver is gone once the job has returned. -/
def deliver (job : Job) (control : JobControl) : Option Job :=
  if job.pc = .returned ∨ 64 ≤ job.controls.length then none
  else some { job with controls := job.controls ++ [control] }

def write (job : Job) (error : Option String) : Option Job :=
  if job.writer.failed.isSome ∨ job.writer.blocks.length ≤ job.writer.taken then none
  else some { job with writer := { job.writer with
    taken := job.writer.taken + 1, failed := error } }

def step (config : WorkerConfig) (job : Job) : JobAction → Option Job
  | .run choice => job.execute config choice
  | .deliver control => job.deliver control
  | .dropControls => some { job with controlsClosed := true }
  | .write error => job.write error

end Job

def jobSystem (config : WorkerConfig) (a : Assignment) : Transition.System Job JobAction :=
  .ofStep (.new a) (Job.step config)

end SmartC.Worker
