import SmartC.Protocol

/-!
# Requests, events and errors of executor-api

`model.rs` and the pure functions at the end of `state.rs`: the request that
creates an execution and its validation, the messages a browser sees, the
phase table, and the decoding of the worker's enumerations.
-/

namespace SmartC.Executor

/-! ### Errors -/

structure ApiError where
  status : Nat
  code : String
  detail : String
  deriving DecidableEq, Repr

namespace ApiError

def badRequest (code detail : String) : ApiError := ⟨400, code, detail⟩
def notFound : ApiError := ⟨404, "execution_not_found", "実行セッションが見つかりません"⟩
def conflict (code detail : String) : ApiError := ⟨409, code, detail⟩
def tooLarge (detail : String) : ApiError := ⟨413, "source_too_large", detail⟩
def tooManyRequests (code detail : String) : ApiError := ⟨429, code, detail⟩
def unavailable (code detail : String) : ApiError := ⟨503, code, detail⟩

end ApiError

inductive Code
  | invalidArgument | notFound | alreadyExists | permissionDenied | resourceExhausted
  | failedPrecondition
  deriving DecidableEq, Repr

structure Status where
  code : Code
  message : String
  deriving DecidableEq, Repr

/-! ### Phases -/

inductive ExecutionPhase
  | queued | compiling | compileFailed | running | exited | timedOut | resourceLimited
  | cancelled | sandboxViolation
  deriving DecidableEq, Repr

inductive ExitReason
  | completed | compileFailed | timedOut | resourceLimited | cancelled | sandboxViolation
  | internalError
  deriving DecidableEq, Repr

inductive OutputStream
  | stdout | stderr
  deriving DecidableEq, Repr

def validTransition : ExecutionPhase → ExecutionPhase → Bool
  | .queued, .compiling
  | .compiling, .compileFailed | .compiling, .running | .compiling, .timedOut
  | .compiling, .resourceLimited | .compiling, .cancelled
  | .running, .exited | .running, .timedOut | .running, .resourceLimited
  | .running, .cancelled | .running, .sandboxViolation => true
  | a, b => a == b

def protocolPhase : Int → Option ExecutionPhase
  | 1 => some .queued
  | 2 => some .compiling
  | 3 => some .compileFailed
  | 4 => some .running
  | 5 => some .exited
  | 6 => some .timedOut
  | 7 => some .resourceLimited
  | 8 => some .cancelled
  | 9 => some .sandboxViolation
  | _ => none

def protocolExitReason : Int → Option ExitReason
  | 1 => some .completed
  | 2 => some .compileFailed
  | 3 => some .timedOut
  | 4 => some .resourceLimited
  | 5 => some .cancelled
  | 6 => some .sandboxViolation
  | 7 => some .internalError
  | _ => none

/-- An exit event names a reason that `protocolExitReason` knows. -/
def hasExitReason : EventPayload → Bool
  | .exit _ _ reason => (protocolExitReason reason).isSome
  | _ => true

def protocolOutputStream : Int → Option OutputStream
  | 1 => some .stdout
  | 2 => some .stderr
  | _ => none

def phaseForExit : ExitReason → ExecutionPhase
  | .completed => .exited
  | .compileFailed => .compileFailed
  | .timedOut => .timedOut
  | .resourceLimited => .resourceLimited
  | .cancelled => .cancelled
  | .sandboxViolation => .sandboxViolation
  | .internalError => .exited

/-! ### What the browser sees and sends -/

inductive ServerMessage
  | hello (protocol : Nat) (sessionId : Uuid)
  | phase (phase : ExecutionPhase) (position : Option Nat)
  | compilerOutput (stream : OutputStream) (data : String)
  | exit (code signal : Option Int) (reason : ExitReason)
  | error (code message : String) (retryable : Bool)
  | pong (nonce : String)
  deriving DecidableEq, Repr

inductive BrowserEvent
  | text (m : ServerMessage)
  | binary (data : Bytes)
  deriving DecidableEq, Repr

def BrowserEvent.closesSocket : BrowserEvent → Bool
  | .text (.exit ..) => true
  | _ => false

inductive ClientControl
  | resize (cols rows : UInt16)
  | terminate
  | ping (nonce : String)
  deriving DecidableEq, Repr

/-- A WebSocket message. A text message is given by its length in bytes and by
what `serde_json` reads from it: a control, or the text of the parse error. -/
inductive ClientMessage
  | binary (data : Bytes)
  | text (length : Nat) (control : Except String ClientControl)
  | ping
  | pong
  | close

/-! ### Creating an execution -/

structure SourceFile where
  name : String
  content : String
  deriving DecidableEq, Repr

structure TerminalSize where
  cols : UInt16
  rows : UInt16
  deriving DecidableEq, Repr

structure CreateExecutionRequest where
  files : List SourceFile
  terminal : TerminalSize
  visitorId : String
  clientIp : String
  deriving DecidableEq, Repr

def validateTerminal (t : TerminalSize) : Except ApiError Unit :=
  if 20 ≤ t.cols ∧ t.cols ≤ 240 ∧ 5 ≤ t.rows ∧ t.rows ≤ 80 then .ok ()
  else .error (.badRequest "terminal_size_invalid"
    "端末サイズは20〜240桁、5〜80行の範囲にしてください")

def toAsciiLowercase (s : String) : String := String.ofList (s.toList.map Char.toLower)

/-- The loop of `validate_request` over the files: the lowercased names seen so
far, the total size and whether `main.c` was met. -/
def validateFiles (names : List String) (total : Nat) (hasMain : Bool) :
    List SourceFile → Except ApiError (Nat × Bool)
  | [] => .ok (total, hasMain)
  | file :: rest =>
    if !isValidSourceFileName file.name then
      .error (.badRequest "source_file_name_invalid"
        "ファイル名は英数字、ハイフン、アンダースコアを使った.cまたは.hにしてください")
    else if names.contains (toAsciiLowercase file.name) then
      .error (.badRequest "source_file_name_duplicate" "同じファイル名を複数指定できません")
    else if file.content.toList.contains '\x00' then
      .error (.badRequest "source_contains_nul" "ファイル内容にNUL文字は使用できません")
    else
      validateFiles (toAsciiLowercase file.name :: names)
        (saturatingAdd total file.content.utf8ByteSize) (hasMain || file.name == "main.c") rest

def validateRequest (request : CreateExecutionRequest) : Except ApiError Unit :=
  if request.files.isEmpty ∨ sourceFileMaxCount < request.files.length then
    .error (.badRequest "source_files_count_invalid" "ファイル数は1から16件にしてください")
  else
    match validateFiles [] 0 false request.files with
    | .error e => .error e
    | .ok (total, hasMain) =>
      if !hasMain then .error (.badRequest "main_source_missing" "main.cは必須です")
      else if total = 0 then
        .error (.badRequest "source_empty" "C言語ソースを入力してください")
      else if sourceFilesMaxBytes < total then
        .error (.tooLarge "全ファイルの合計は64KiB以下にしてください")
      else if request.visitorId.isEmpty ∨ 128 < request.visitorId.utf8ByteSize then
        .error (.badRequest "visitor_id_invalid" "visitorIdが不正です")
      else if request.clientIp.isEmpty ∨ 64 < request.clientIp.utf8ByteSize then
        .error (.badRequest "client_ip_invalid" "clientIpが不正です")
      else validateTerminal request.terminal

end SmartC.Executor
