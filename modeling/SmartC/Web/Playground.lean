import Mathlib.Logic.Function.Basic
import SmartC.Executor.Model
import SmartC.Transition

/-!
# Running and stopping from the playground

`run`, `stop` and the handlers of the execution socket in `playground.tsx`. The
callbacks of the page run one after the other, so each is one step, and a
suspended `run` goes on in a step of its own when its request completes.

The abort controller and the socket of a run are identified by the number of
the run. What the source files, the editor and the tabs add to a run is left
out, and so is the unmounting of the page.
-/

namespace SmartC.Web

open Executor (ExecutionPhase ExitReason ServerMessage TerminalSize)
open Function (update)

/-! ### Phases and texts -/

/-- The `ExecutionPhase` of `wire.ts`: that of the protocol and three of the page. -/
inductive PagePhase
  | idle
  | creating
  | disconnected
  | wire (phase : ExecutionPhase)
  deriving DecidableEq, Repr

/-- `ACTIVE_EXECUTION_PHASES`. -/
def PagePhase.isActive : PagePhase → Bool
  | .creating | .wire .queued | .wire .compiling | .wire .running => true
  | _ => false

def getExitPhase : ExitReason → ExecutionPhase
  | .compileFailed => .compileFailed
  | .timedOut => .timedOut
  | .resourceLimited => .resourceLimited
  | .cancelled => .cancelled
  | .sandboxViolation => .sandboxViolation
  | .completed | .internalError => .exited

def formatExitMessage (code signal : Option Int) : ExitReason → String
  | .compileFailed => "コンパイルに失敗しました。上のエラーを確認してください。"
  | .timedOut => "実行時間の上限に達したため停止しました。"
  | .resourceLimited => "メモリ・プロセス数・出力量の上限に達しました。"
  | .cancelled => "実行を停止しました。"
  | .sandboxViolation => "許可されていない操作を検出したため停止しました。"
  | .internalError => "実行環境で内部エラーが発生しました。"
  | .completed =>
    match code, signal with
    | some code, _ => s!"終了コード {code} で終了しました。"
    | none, some signal => s!"シグナル {signal} で終了しました。"
    | none, none => "プログラムが終了しました。"

inductive RunError
  | abort
  | api (message : String) (retryAfterSeconds : Option Nat)
  | other
  deriving DecidableEq, Repr

def formatApiError : RunError → String
  | .api message none => message
  | .api message (some seconds) => s!"{message}（約{seconds}秒後に再試行できます）"
  | .abort | .other => "サービスへ接続できませんでした。しばらく待ってから再試行してください。"

/-! ### The page -/

abbrev RunId := Nat

structure ExecutionResponse where
  id : Uuid
  webSocketPath : String
  deriving DecidableEq, Repr

inductive ReadyState
  | connecting | opened | closing | closed
  deriving DecidableEq, Repr

inductive ClientEvent
  | resize (cols rows : Nat)
  | terminate
  | ping (nonce : String)
  | input (data : Bytes)
  deriving DecidableEq, Repr

structure PageSocket where
  session : ExecutionResponse
  readyState : ReadyState
  sent : List ClientEvent
  closed : Option (Nat × String)
  deriving DecidableEq, Repr

structure PageRequest where
  pending : Bool
  aborted : Bool
  deriving DecidableEq, Repr

inductive TerminalWrite
  | text (s : String)
  | bytes (data : Bytes)
  deriving DecidableEq, Repr

/-- `abortRef`, `socketRef`, `pingTimer` and `expectedSocketClose` are the refs of the component;
`runs` is the number of runs that were started. -/
structure Page where
  phase : PagePhase
  systemMessage : String
  terminal : List TerminalWrite
  size : TerminalSize
  abortRef : Option RunId
  socketRef : Option RunId
  expectedSocketClose : Bool
  pingTimer : Option RunId
  runs : Nat
  request : RunId → PageRequest
  socket : RunId → Option PageSocket

def Page.new : Page where
  phase := .idle
  systemMessage := ""
  terminal := []
  size := ⟨100, 30⟩
  abortRef := none
  socketRef := none
  expectedSocketClose := false
  pingTimer := none
  runs := 0
  request _ := ⟨false, false⟩
  socket _ := none

namespace Page

def write (s : Page) (w : TerminalWrite) : Page := { s with terminal := s.terminal ++ [w] }

def writeln (s : Page) (text : String) : Page := s.write (.text (text ++ "\r\n"))

def updateExecutionPhase (s : Page) (phase : PagePhase) : Page := { s with phase := phase }

def clearPingTimer (s : Page) : Page := { s with pingTimer := none }

def setSocket (s : Page) (r : RunId) (socket : PageSocket) : Page :=
  { s with socket := update s.socket r (some socket) }

/-- `sendJsonMessage`, and `socket.send` where the state of the socket was tested before. -/
def send (s : Page) (r : Option RunId) (event : ClientEvent) : Bool × Page :=
  match r.bind fun r => (s.socket r).map (r, ·) with
  | some (r, socket) =>
    if socket.readyState = .opened then
      (true, s.setSocket r { socket with sent := socket.sent ++ [event] })
    else (false, s)
  | none => (false, s)

/-- `socket.close`, which changes nothing once the socket is closing. -/
def closeSocket (s : Page) (r : RunId) (code : Nat) (reason : String) : Page :=
  match s.socket r with
  | some socket =>
    match socket.readyState with
    | .connecting | .opened =>
      s.setSocket r { socket with readyState := .closing, closed := some (code, reason) }
    | .closing | .closed => s
  | none => s

def isLive (s : Page) (r : RunId) : Bool :=
  match s.socket r with
  | some socket => socket.readyState = .connecting || socket.readyState = .opened
  | none => false

def closeExecutionSocket (s : Page) : Page :=
  let cleared := { s.clearPingTimer with socketRef := none }
  match s.socketRef with
  | some r =>
    if s.isLive r then { cleared with expectedSocketClose := true }.closeSocket r 1000 "client cleanup"
    else cleared
  | none => cleared

/-! ### run and stop -/

/-- `run` up to the request. -/
def run (s : Page) : Page :=
  if s.phase.isActive then s
  else
    let cleaned := { s.closeExecutionSocket with
      expectedSocketClose := false, systemMessage := "", terminal := [] }
    let shown := (cleaned.writeln "[実行環境を準備しています]").updateExecutionPhase .creating
    { shown with
      abortRef := some s.runs
      runs := s.runs + 1
      request := update shown.request s.runs ⟨true, false⟩ }

/-- The `finally` of `run`. -/
def finishRun (s : Page) (r : RunId) : Page :=
  if s.abortRef = some r then { s with abortRef := none } else s

/-- The `catch` of `run`. -/
def failRun (s : Page) (r : RunId) (error : RunError) : Page :=
  if s.abortRef ≠ some r then s
  else
    match error with
    | .abort => s.updateExecutionPhase (.wire .cancelled)
    | .api .. | .other =>
      let message := formatApiError error
      { s.updateExecutionPhase .disconnected with systemMessage := message }.writeln
        ("\r\n[" ++ message ++ "]")

/-- How the promise of `createExecution` settles. With a session, the constructor of the socket
may throw. -/
inductive Settled
  | session (response : ExecutionResponse) (constructed : Bool)
  | error (error : RunError)

def endRequest (s : Page) (r : RunId) : Page :=
  { s with request := update s.request r { s.request r with pending := false } }

/-- `run` after the request. -/
def settle (s : Page) (r : RunId) (settled : Settled) : Page :=
  let s := s.endRequest r
  match settled with
  | .error error => (s.failRun r error).finishRun r
  | .session response constructed =>
    -- `stop` was used, or another run has begun
    if (s.request r).aborted ∨ s.abortRef ≠ some r then s.finishRun r
    else if constructed then
      { s.setSocket r ⟨response, .connecting, [], none⟩ with socketRef := some r }.finishRun r
    else (s.failRun r .other).finishRun r

def abort (s : Page) : Page :=
  match s.abortRef with
  | some r => { s with request := update s.request r { s.request r with aborted := true } }
  | none => s

def stop (s : Page) : Page :=
  if s.phase = .creating then
    -- the socket is left alone, also if there is one already
    (s.abort.writeln "\r\n[実行準備を停止しました]").updateExecutionPhase (.wire .cancelled)
  else
    match s.send s.socketRef .terminate with
    | (true, s) => s
    | (false, s) => (s.updateExecutionPhase (.wire .cancelled)).writeln "\r\n[実行を停止しました]"

/-! ### The socket -/

def handleExecutionEvent (s : Page) (r : RunId) (session : ExecutionResponse) :
    ServerMessage → Page
  | .hello protocol sessionId =>
    if protocol ≠ 1 ∨ sessionId ≠ session.id then
      ((s.writeln "\r\n[実行セッションを確認できませんでした]").updateExecutionPhase
        .disconnected).closeSocket r 4002 "invalid hello"
    else { s.clearPingTimer with pingTimer := some r }
  | .phase phase _ =>
    let next := s.updateExecutionPhase (.wire phase)
    if phase = .queued ∧ s.phase ≠ .wire .queued then next.writeln "[実行待ちです]"
    else if phase = .compiling ∧ s.phase ≠ .wire .compiling then next.writeln "[コンパイル中]"
    else if phase = .running ∧ s.phase ≠ .wire .running then
      (next.send (some r) (.resize s.size.cols.toNat s.size.rows.toNat)).2.writeln "[実行開始]\r\n"
    else next
  | .compilerOutput _ data => s.write (.text data)
  | .exit code signal reason =>
    { (s.updateExecutionPhase (.wire (getExitPhase reason))).writeln
        ("\r\n[" ++ formatExitMessage code signal reason ++ "]") with
      expectedSocketClose := true }.clearPingTimer
  | .error _ message _ =>
    { (s.updateExecutionPhase .disconnected).writeln ("\r\n[実行エラー: " ++ message ++ "]") with
      systemMessage := message }
  | .pong _ => s

/-- A message on a socket: a text with what `parseServerEvent` makes of it, or bytes. -/
inductive SocketData
  | text (event : Option ServerMessage)
  | binary (data : Bytes)

def handleSocketMessage (s : Page) (r : RunId) (session : ExecutionResponse) : SocketData → Page
  | .text (some event) => s.handleExecutionEvent r session event
  | .text none => s
  | .binary data => s.write (.bytes data)

def onclose (s : Page) (r : RunId) : Page :=
  if s.socketRef ≠ some r then s
  else
    let cleared := { s.clearPingTimer with socketRef := none }
    let shown :=
      if !s.expectedSocketClose && s.phase.isActive then
        (cleared.updateExecutionPhase .disconnected).writeln "\r\n[実行環境との接続が切れました]"
      else cleared
    { shown with expectedSocketClose := false }

def onerror (s : Page) (r : RunId) : Page :=
  if s.socketRef = some r then
    { s with systemMessage := "実行環境との通信でエラーが発生しました。" }
  else s

end Page

/-! ### Steps -/

/-- What happens next on the page. The browser opens, closes and delivers messages on a socket
only in the states in which it may; `closing` is a close that the other side has begun. -/
inductive PageAction
  | run
  | stop
  | settled (r : RunId) (settled : Page.Settled)
  | opened (r : RunId)
  | message (r : RunId) (data : Page.SocketData)
  | error (r : RunId)
  | closing (r : RunId)
  | closed (r : RunId)
  | ping (nonce : String)
  | input (data : String)
  | resize (size : TerminalSize)

/-- The run that an action comes from. -/
def PageAction.origin : PageAction → Option RunId
  | .settled r _ | .opened r | .message r _ | .error r | .closing r | .closed r => some r
  | .run | .stop | .ping _ | .input _ | .resize _ => none

namespace Page

def step (s : Page) : PageAction → Option Page
  | .run => some s.run
  | .stop => some s.stop
  | .settled r settled => if (s.request r).pending then some (s.settle r settled) else none
  | .opened r =>
    match s.socket r with
    | some socket =>
      if socket.readyState = .connecting then some (s.setSocket r { socket with readyState := .opened })
      else none
    | none => none
  | .message r data =>
    match s.socket r with
    | some socket =>
      if socket.readyState = .opened then
        if s.socketRef = some r then some (s.handleSocketMessage r socket.session data) else some s
      else none
    | none => none
  | .error r => (s.socket r).map fun _ => s.onerror r
  | .closing r =>
    match s.socket r with
    | some socket =>
      if s.isLive r then some (s.setSocket r { socket with readyState := .closing }) else none
    | none => none
  | .closed r =>
    match s.socket r with
    | some socket =>
      if socket.readyState = .closed then none
      else some ((s.setSocket r { socket with readyState := .closed }).onclose r)
    | none => none
  | .ping nonce => s.pingTimer.map fun r => (s.send (some r) (.ping nonce)).2
  | .input data =>
    if s.phase = .wire .running then some (s.send s.socketRef (.input (utf8 data))).2 else some s
  | .resize size =>
    let resized := { s with size := size }
    if s.phase = .wire .running then
      some (resized.send s.socketRef (.resize (min 240 (max 20 size.cols.toNat))
        (min 80 (max 5 size.rows.toNat)))).2
    else some resized

end Page

def pageSystem : Transition.System Page PageAction := .ofStep .new Page.step

end SmartC.Web
