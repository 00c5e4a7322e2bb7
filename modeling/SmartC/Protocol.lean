import Mathlib.Algebra.GroupWithZero.Nat
import Mathlib.Data.List.Basic

/-!
# The executor protocol

The messages of `executor.proto` and the helpers of the `executor-protocol`
crate that both the API and the worker use. A job id travels as text:
`JobIdText.canonical` is what `Uuid::to_string` prints, `other` any other text
together with what `Uuid::parse_str` makes of it.
-/

namespace SmartC

/-- `uuid::Uuid`. Only equality of ids is used anywhere. -/
abbrev Uuid := Nat

abbrev Bytes := List UInt8

def utf8 (s : String) : Bytes := s.toList.flatMap String.utf8EncodeChar

/-- `usize::saturating_add` on a 64-bit target. -/
def saturatingAdd (a b : Nat) : Nat := min (a + b) (2 ^ 64 - 1)

inductive JobIdText
  | canonical (id : Uuid)
  | other (parsed : Option Uuid)
  deriving DecidableEq, Repr

def JobIdText.parse : JobIdText → Option Uuid
  | .canonical id => some id
  | .other parsed => parsed

/-! ### API to worker -/

structure ProtocolSourceFile where
  name : String
  content : Bytes
  deriving DecidableEq, Repr

structure JobAssignment where
  jobId : Uuid
  terminalCols : UInt32
  terminalRows : UInt32
  files : List ProtocolSourceFile
  deriving DecidableEq, Repr

inductive CommandAction
  | stdin (data : Bytes)
  | resize (cols rows : UInt32)
  | cancel (reason : String)
  deriving DecidableEq, Repr

structure JobCommand where
  jobId : Uuid
  action : Option CommandAction
  deriving DecidableEq, Repr

inductive ApiMessage
  | assignment (a : JobAssignment)
  | command (c : JobCommand)
  | empty
  deriving DecidableEq, Repr

def ApiMessage.assigned : ApiMessage → Option Uuid
  | .assignment a => some a.jobId
  | .command _ | .empty => none

def ApiMessage.cancels : ApiMessage → Option Uuid
  | .command ⟨j, some (.cancel _)⟩ => some j
  | _ => none

/-! ### Worker to API -/

structure WorkerRegistration where
  workerId : String
  architecture : String
  backend : String
  deriving DecidableEq, Repr

/-- Enumerations arrive as `i32` and are decoded by the receiver. -/
inductive EventPayload
  | phase (phase : Int)
  | compilerOutput (stream : Int) (data : Bytes)
  | terminalOutput (data : Bytes)
  | exit (code signal : Option Int) (reason : Int)
  | error (code message : String) (retryable : Bool)
  deriving DecidableEq, Repr

structure JobEvent where
  workerId : String
  jobId : JobIdText
  payload : Option EventPayload
  deriving DecidableEq, Repr

def JobEvent.exited (e : JobEvent) : Option Uuid :=
  match e.payload with
  | some (.exit ..) => e.jobId.parse
  | _ => none

inductive WorkerMessage
  | registration (r : WorkerRegistration)
  | heartbeat (workerId : String) (jobId : Option JobIdText)
  | event (e : JobEvent)
  | empty
  deriving DecidableEq, Repr

/-! ### Source files -/

def sourceFileMaxCount : Nat := 16
def sourceFileNameMaxBytes : Nat := 64
def sourceFilesMaxBytes : Nat := 64 * 1024

def isAsciiAlphanumeric (b : UInt8) : Bool :=
  (0x30 ≤ b && b ≤ 0x39) || (0x41 ≤ b && b ≤ 0x5a) || (0x61 ≤ b && b ≤ 0x7a)

/-- `str::strip_suffix`, on bytes. -/
def stripEnding (ending bytes : Bytes) : Option Bytes :=
  if ending.isSuffixOf bytes then some (bytes.take (bytes.length - ending.length)) else none

def isValidSourceFileName (name : String) : Bool :=
  let bytes := utf8 name
  if sourceFileNameMaxBytes < bytes.length then false
  else
    match (stripEnding (utf8 ".c") bytes).or (stripEnding (utf8 ".h") bytes) with
    | none => false
    | some [] => false
    | some (first :: rest) =>
      isAsciiAlphanumeric first &&
        rest.all fun b => isAsciiAlphanumeric b || b == 0x5f || b == 0x2d

end SmartC
