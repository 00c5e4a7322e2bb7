import SmartC.Worker.Events

/-!
# The worker's connection to the API

One call of `connect_once` of `client.rs`, with the tasks it spawns: its
`select!` loop, the heartbeats and the job. Both directions of the stream are
FIFO. What has been enqueued for the API is `emitted`, of which `delivered`
messages have arrived, so the `outbound` channel and the network behind it are
one queue; what has arrived from the API and waits for the loop is `inbound`.
`received` records what the loop has taken out and is read by no operation.
-/

namespace SmartC.Worker

open Function (update)

inductive ClientError
  | protocol (detail : String)
  | jobControlClosed
  deriving DecidableEq, Repr

/-- Where the loop stands. `deliver` is the `await` on the control channel of the job, `ended`
the return from `connect_once`. -/
inductive Loop
  | unconnected
  | select
  | deliver (control : JobControl)
  | ended (error : Option ClientError)
  deriving DecidableEq, Repr

/-- `heartbeat` is a message that `send_heartbeats` has built and not yet enqueued; `running`
is the job whose task has not yet sent its completion. -/
structure Client where
  workerId : String
  loop : Loop
  active : Option Uuid
  currentJob : Option Uuid
  heartbeat : Option (Option Uuid)
  completions : List Uuid
  running : Option Uuid
  jobs : Uuid → Job
  inbound : List ApiMessage
  received : List ApiMessage
  emitted : List WorkerMessage
  delivered : Nat

def Job.absent (j : Uuid) : Job := { Job.new ⟨.canonical j, 0, 0, []⟩ with pc := .returned }

def Client.new : Client where
  workerId := ""
  loop := .unconnected
  active := none
  currentJob := none
  heartbeat := none
  completions := []
  running := none
  jobs := Job.absent
  inbound := []
  received := []
  emitted := []
  delivered := 0

/-! ### handle_api_message -/

def stdinMaxBytes : Nat := 8 * 1024

def commandControl : Option CommandAction → Except ClientError JobControl
  | none => .error (.protocol "ジョブ操作内容がありません")
  | some (.stdin data) =>
    if stdinMaxBytes < data.length then .error (.protocol "stdinフレームが8KiBを超えています")
    else .ok (.input data)
  | some (.resize cols rows) =>
    match tryU16 cols with
    | none => .error (.protocol "colsが不正です")
    | some cols =>
      match tryU16 rows with
      | none => .error (.protocol "rowsが不正です")
      | some rows =>
        if isTerminalSize cols rows then .ok (.resize cols rows)
        else .error (.protocol "端末サイズが許可範囲外です")
  | some (.cancel reason) =>
    if "resource_limit:".toList.isPrefixOf reason.toList then .ok .resourceLimit else .ok .cancel

namespace Client

def setJob (k : Client) (j : Uuid) (job : Job) : Client := { k with jobs := update k.jobs j job }

/-- `connect_once` returns with an error and drops the active job's controls. -/
def fail (k : Client) (error : ClientError) : Client :=
  let k := match k.active with
    | none => k
    | some j => k.setJob j { k.jobs j with controlsClosed := true }
  { k with loop := .ended (some error), active := none }

def busyError : ClientError := .protocol "処理中Workerへ別のジョブが割り当てられました"

def handleAssignment (k : Client) (a : JobAssignment) : Client :=
  if k.active.isSome then k.fail busyError
  else { k.setJob a.jobId (.new (.received a)) with
    currentJob := some a.jobId, active := some a.jobId, running := some a.jobId }

def handleCommand (k : Client) (command : JobCommand) : Client :=
  match k.active with
  | none => k.fail (.protocol "実行中でないWorkerへ操作が届きました")
  | some id =>
    if command.jobId ≠ id then k.fail (.protocol "現在ジョブと異なる操作が届きました")
    else
      match commandControl command.action with
      | .error e => k.fail e
      | .ok control => { k with loop := .deliver control }

def handleApiMessage (k : Client) : ApiMessage → Client
  | .empty => k.fail (.protocol "APIメッセージ内容がありません")
  | .assignment a => k.handleAssignment a
  | .command command => k.handleCommand command

/-! ### The loop -/

/-- The branch of `inbound.message()`. The `select!` is biased: while a job is active, a
completion that is ready goes first. -/
def receive (k : Client) : Option Client :=
  match k.loop, k.inbound with
  | .select, m :: rest =>
    -- the branch of completions is disabled while no job is active
    if k.active.isNone || k.completions.isEmpty then
      some ({ k with inbound := rest, received := k.received ++ [m] }.handleApiMessage m)
    else none
  | _, _ => none

/-- `active.controls.send(control)` ends, or fails because the receiver is gone. -/
def deliver (k : Client) : Option Client :=
  match k.loop, k.active with
  | .deliver control, some j =>
    if (k.jobs j).pc = .returned then some (k.fail .jobControlClosed)
    else ((k.jobs j).deliver control).map fun job => { k.setJob j job with loop := .select }
  | _, _ => none

def complete (k : Client) : Option Client :=
  match k.loop, k.active, k.completions with
  | .select, some j, completed :: rest =>
    let k := { k with completions := rest }
    some (if j = completed then { k with active := none, currentJob := none } else k)
  | _, _, _ => none

/-- The stream from the API ends: the loop breaks and the active job is told to stop. -/
def close (k : Client) : Option Client :=
  match k.loop with
  | .select =>
    let k := match k.active with
      | none => k
      | some j => k.setJob j { k.jobs j with controls := (k.jobs j).controls ++ [JobControl.cancel] }
    some { k with loop := .ended none }
  | _ => none

/-! ### The job's task and the heartbeats -/

def emit (k : Client) (ms : List WorkerMessage) : Client := { k with emitted := k.emitted ++ ms }

def newEvents (k : Client) (j : Uuid) (job : Job) : List WorkerMessage :=
  (job.sent.drop (k.jobs j).sent.length).map fun payload =>
    .event ⟨k.workerId, (k.jobs j).assignment.jobId, some payload⟩

/-- The spawned task runs `execute_assignment`; the writer thread may outlive it. Controls are
delivered and dropped by the loop. -/
def job (config : WorkerConfig) (k : Client) (j : Uuid) : JobAction → Option Client
  | .run choice =>
    if k.running = some j then
      ((k.jobs j).step config (.run choice)).map fun job =>
        (k.setJob j job).emit (k.newEvents j job)
    else none
  | .write error => ((k.jobs j).step config (.write error)).map fun job => k.setJob j job
  | .deliver _ | .dropControls => none

def finish (k : Client) : Option Client :=
  match k.running with
  | none => none
  | some j =>
    if (k.jobs j).pc = .returned ∧ k.completions.length < 4 then
      some { k with running := none, completions := k.completions ++ [j] }
    else none

def readCurrentJob (k : Client) : Option Client :=
  match k.loop, k.heartbeat with
  | .unconnected, _ | .ended _, _ | _, some _ => none
  | _, none => some { k with heartbeat := some k.currentJob }

/-- `send_heartbeats` enqueues its message. The task is aborted when the loop breaks, and an
error of the loop drops the stream and with it the receiver of `outbound`. -/
def sendHeartbeat (k : Client) : Option Client :=
  match k.loop, k.heartbeat with
  | .unconnected, _ | .ended _, _ | _, none => none
  | _, some jobId =>
    some ({ k with heartbeat := none }.emit [.heartbeat k.workerId (jobId.map .canonical)])

end Client

inductive ClientAction
  | receive
  | deliver
  | complete
  | close
  | job (j : Uuid) (action : JobAction)
  | finish
  | readCurrentJob
  | sendHeartbeat

def Client.step (config : WorkerConfig) (k : Client) : ClientAction → Option Client
  | .receive => k.receive
  | .deliver => k.deliver
  | .complete => k.complete
  | .close => k.close
  | .job j action => k.job config j action
  | .finish => k.finish
  | .readCurrentJob => k.readCurrentJob
  | .sendHeartbeat => k.sendHeartbeat

/-! ### Inversion -/

namespace Client

def ended (k : Client) : Bool :=
  match k.loop with
  | .ended _ => true
  | _ => false

def connected (k : Client) : Bool :=
  match k.loop with
  | .unconnected | .ended _ => false
  | _ => true

inductive Refuses (k : Client) : ApiMessage → ClientError → Prop
  | empty : Refuses k .empty (.protocol "APIメッセージ内容がありません")
  | busy {a j} (active : k.active = some j) : Refuses k (.assignment a) busyError
  | idle {c} (active : k.active = none) :
      Refuses k (.command c) (.protocol "実行中でないWorkerへ操作が届きました")
  | other {c j} (active : k.active = some j) (other : c.jobId ≠ j) :
      Refuses k (.command c) (.protocol "現在ジョブと異なる操作が届きました")
  | invalid {c j e} (active : k.active = some j) (job : c.jobId = j)
      (invalid : commandControl c.action = .error e) : Refuses k (.command c) e

inductive Handles (k : Client) : ApiMessage → Client → Prop
  | assigned {a} (free : k.active = none) :
      Handles k (.assignment a) { k.setJob a.jobId (.new (.received a)) with
        currentJob := some a.jobId, active := some a.jobId, running := some a.jobId }
  | accepted {c j control} (active : k.active = some j) (job : c.jobId = j)
      (valid : commandControl c.action = .ok control) :
      Handles k (.command c) { k with loop := .deliver control }
  | refused {m e} (refuses : Refuses k m e) : Handles k m (k.fail e)

theorem handleApiMessage_handles (k : Client) (m : ApiMessage) :
    Handles k m (k.handleApiMessage m) := by
  cases m with
  | empty => exact .refused .empty
  | assignment a =>
    simp only [handleApiMessage, handleAssignment]
    split
    · next hactive =>
      obtain ⟨j, hj⟩ := Option.isSome_iff_exists.1 hactive
      exact .refused (.busy hj)
    · next hactive => exact .assigned (by simpa using hactive)
  | command c =>
    simp only [handleApiMessage, handleCommand]
    split
    · next hactive => exact .refused (.idle hactive)
    · next j hactive =>
      split
      · next hother => exact .refused (.other hactive hother)
      · next hjob =>
        have hjob := not_not.1 hjob
        split
        · next hinvalid => exact .refused (.invalid hactive hjob hinvalid)
        · next hcontrol => exact .accepted hactive hjob hcontrol

inductive StepCase (config : WorkerConfig) (k : Client) : ClientAction → Client → Prop
  | received {m rest k'} (select : k.loop = .select) (next : k.inbound = m :: rest)
      (turn : k.active = none ∨ k.completions = [])
      (handles : Handles { k with inbound := rest, received := k.received ++ [m] } m k') :
      StepCase config k .receive k'
  | delivered {control j} (loop : k.loop = .deliver control) (active : k.active = some j)
      (live : (k.jobs j).pc ≠ .returned) (room : (k.jobs j).controls.length < 64) :
      StepCase config k .deliver { k.setJob j { k.jobs j with
        controls := (k.jobs j).controls ++ [control] } with loop := .select }
  | undelivered {control j} (loop : k.loop = .deliver control) (active : k.active = some j)
      (returned : (k.jobs j).pc = .returned) :
      StepCase config k .deliver (k.fail .jobControlClosed)
  | completed {j rest} (select : k.loop = .select) (active : k.active = some j)
      (next : k.completions = j :: rest) :
      StepCase config k .complete
        { k with completions := rest, active := none, currentJob := none }
  | completedOther {i j rest} (select : k.loop = .select) (active : k.active = some j)
      (next : k.completions = i :: rest) (other : j ≠ i) :
      StepCase config k .complete { k with completions := rest }
  | closedIdle (select : k.loop = .select) (active : k.active = none) :
      StepCase config k .close { k with loop := .ended none }
  | closed {j} (select : k.loop = .select) (active : k.active = some j) :
      StepCase config k .close { k.setJob j { k.jobs j with
        controls := (k.jobs j).controls ++ [JobControl.cancel] } with loop := .ended none }
  | ran {j choice job} (running : k.running = some j)
      (run : (k.jobs j).execute config choice = some job) :
      StepCase config k (.job j (.run choice)) ((k.setJob j job).emit (k.newEvents j job))
  | wrote {j error job} (write : (k.jobs j).write error = some job) :
      StepCase config k (.job j (.write error)) (k.setJob j job)
  | finished {j} (running : k.running = some j) (returned : (k.jobs j).pc = .returned) :
      StepCase config k .finish { k with running := none, completions := k.completions ++ [j] }
  | readCurrentJob (connected : k.connected = true) (unread : k.heartbeat = none) :
      StepCase config k .readCurrentJob { k with heartbeat := some k.currentJob }
  | sentHeartbeat {jobId} (connected : k.connected = true) (read : k.heartbeat = some jobId) :
      StepCase config k .sendHeartbeat
        ({ k with heartbeat := none }.emit [.heartbeat k.workerId (jobId.map .canonical)])

variable {config : WorkerConfig} {k k' : Client}

theorem receive_case (h : k.receive = some k') : StepCase config k .receive k' := by
  simp only [receive] at h
  split at h
  · next m rest hselect hnext =>
    split at h
    · next hturn =>
      cases h
      refine .received hselect hnext ?_ (handleApiMessage_handles _ m)
      simpa only [Bool.or_eq_true, Option.isNone_iff_eq_none, List.isEmpty_iff] using hturn
    · cases h
  · cases h

theorem deliver_case (h : k.deliver = some k') : StepCase config k .deliver k' := by
  simp only [deliver] at h
  split at h
  · next control j hloop hactive =>
    split at h
    · next hreturned =>
      cases h
      exact .undelivered hloop hactive hreturned
    · next hlive =>
      obtain ⟨job, hjob, rfl⟩ := Option.map_eq_some_iff.1 h
      simp only [Job.deliver] at hjob
      split at hjob
      · cases hjob
      · next hroom =>
        cases hjob
        exact .delivered hloop hactive hlive (by omega)
  · cases h

theorem complete_case (h : k.complete = some k') : StepCase config k .complete k' := by
  simp only [complete] at h
  split at h
  · next j i rest hselect hactive hnext =>
    split at h
    · next hsame =>
      cases h
      exact .completed hselect hactive (hsame ▸ hnext)
    · next hother =>
      cases h
      exact .completedOther hselect hactive hnext hother
  · cases h

theorem close_case (h : k.close = some k') : StepCase config k .close k' := by
  simp only [close] at h
  split at h
  · next hselect =>
    cases hactive : k.active with
    | none =>
      rw [hactive] at h
      cases h
      exact .closedIdle hselect hactive
    | some j =>
      rw [hactive] at h
      cases h
      exact .closed hselect hactive
  · cases h

theorem job_case {j : Uuid} {action : JobAction} (h : k.job config j action = some k') :
    StepCase config k (.job j action) k' := by
  cases action with
  | run choice =>
    simp only [job] at h
    split at h
    · next hrunning =>
      obtain ⟨job, hjob, rfl⟩ := Option.map_eq_some_iff.1 h
      exact .ran hrunning hjob
    · cases h
  | write error =>
    obtain ⟨job, hjob, rfl⟩ := Option.map_eq_some_iff.1 h
    exact .wrote hjob
  | deliver => cases h
  | dropControls => cases h

theorem finish_case (h : k.finish = some k') : StepCase config k .finish k' := by
  simp only [finish] at h
  split at h
  · cases h
  · next j hrunning =>
    split at h
    · next hreturned =>
      cases h
      exact .finished hrunning hreturned.1
    · cases h

theorem readCurrentJob_case (h : k.readCurrentJob = some k') :
    StepCase config k .readCurrentJob k' := by
  simp only [readCurrentJob] at h
  split at h
  all_goals cases h
  next hunread hconnected hended =>
    refine .readCurrentJob ?_ hunread
    cases hloop : k.loop <;> simp_all [connected]

theorem sendHeartbeat_case (h : k.sendHeartbeat = some k') :
    StepCase config k .sendHeartbeat k' := by
  simp only [sendHeartbeat] at h
  split at h
  all_goals cases h
  next hread hconnected hended =>
    refine .sentHeartbeat ?_ hread
    cases hloop : k.loop <;> simp_all [connected]

theorem step_cases {a : ClientAction} (h : k.step config a = some k') :
    StepCase config k a k' := by
  cases a with
  | receive => exact receive_case h
  | deliver => exact deliver_case h
  | complete => exact complete_case h
  | close => exact close_case h
  | job j action => exact job_case h
  | finish => exact finish_case h
  | readCurrentJob => exact readCurrentJob_case h
  | sendHeartbeat => exact sendHeartbeat_case h

end Client

end SmartC.Worker
