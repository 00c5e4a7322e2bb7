import Mathlib.Data.List.Induction
import SmartC.Executor.Operations
import SmartC.Worker.Execution

/-!
# The events of a job follow the life cycle of the API

`Flow` says once how a job moves from one `await` to the next and what it
enqueues on the way. The phases it announces are steps of the API's transition
table, output is enqueued only in its own phase, and the exit is the last event.
-/

namespace SmartC.EventPayload

def phaseCode : EventPayload → Option Int
  | .phase code => some code
  | _ => none

def isExit : EventPayload → Bool
  | .exit .. => true
  | _ => false

def isTerminalOutput : EventPayload → Bool
  | .terminalOutput _ => true
  | _ => false

def isCompilerOutput : EventPayload → Bool
  | .compilerOutput .. => true
  | _ => false

end SmartC.EventPayload

namespace SmartC.Worker

open Executor (ExecutionPhase Shared Outcome Pc applyPhase protocolPhase validTransition)
open Transition (EachAfter)

variable {config : WorkerConfig} {job job' : Job} {a : Assignment}

/-! ### One turn of the two loops -/

def JobChoice.receives : JobChoice → Bool
  | .pipe _ | .read _ => true
  | _ => false

/-- `Closed` of both pipes is counted in a `u8`. -/
def CompileLoop.closedAfter (loop : CompileLoop) : JobChoice → Nat
  | .pipe (some .closed) => min (loop.pipesClosed + 1) 255
  | _ => loop.pipesClosed

/-- The loop in `run_compile_process` ends in this turn, for another reason than a limit. -/
def Job.leavesCompile (job : Job) (loop : CompileLoop) (choice : JobChoice) : Bool :=
  match choice with
  | .deadline | .drained | .exitCode (.error _) => true
  | .control _ =>
    match job.controls with
    | [] => job.controlsClosed
    | control :: _ => control = .cancel
  | .pipe none => loop.exitCode.isSome
  | .pipe (some .closed) => loop.exitCode.isSome && 2 ≤ loop.closedAfter choice
  | .exitCode (.ok (some _)) => 2 ≤ loop.pipesClosed
  | _ => false

def Job.leavesRun (job : Job) (loop : RuntimeLoop) : JobChoice → Bool
  | .deadline | .drained | .writeFailed .. | .exitStatus (.error _) => true
  | .control resizeError =>
    match job.controls with
    | [] => job.controlsClosed
    | .input _ :: _ => job.writer.failed.isSome
    | .resize .. :: _ => resizeError.isSome
    | control :: _ => control = .cancel
  | .read (some (.failed _)) => loop.processExit.isNone
  | .read (some .closed) | .read none => loop.processExit.isSome
  | _ => false

/-- What a turn of the loop in `run_compile_process` makes of a choice. -/
inductive CompileEvent (config : WorkerConfig) (job : Job) (link : Bool) (loop : CompileLoop) :
    JobChoice → JobAt → Prop
  | failed {choice} (other : choice.receives = false) (error : ExecutionError)
      (leaves : job.leavesCompile loop choice = true) :
      CompileEvent config job link loop choice (.sendError error)
  | stopped {choice} (outcome : CompileOutcome) (early : ∀ code, outcome ≠ .exited code)
      (leaves : job.leavesCompile loop choice = true ∨
        Job.afterCompile link outcome = Job.finishCompileLimit .resourceLimited) :
      CompileEvent config job link loop choice (Job.afterCompile link outcome)
  | exited {choice code}
      (last : choice = .drained ∨ choice = .pipe none ∨ 2 ≤ loop.closedAfter choice)
      (other : ∀ stream data, choice ≠ .pipe (some (.data stream data)))
      (leaves : job.leavesCompile loop choice = true) :
      CompileEvent config job link loop choice (Job.afterCompile link (.exited code))
  | turned {choice loop'} (other : ∀ stream data, choice ≠ .pipe (some (.data stream data)))
      (bytesSent : loop'.bytesSent = loop.bytesSent)
      (pipesClosed : loop'.pipesClosed = loop.closedAfter choice) :
      CompileEvent config job link loop choice (.compile link loop')
  | output {stream data}
      (within : saturatingAdd loop.bytesSent data.length ≤ config.compileOutputLimit) :
      CompileEvent config job link loop (.pipe (some (.data stream data))) (.sendCompilerOutput link
        { loop with bytesSent := saturatingAdd loop.bytesSent data.length } stream data)

/-- What a turn of the loop in `run_pty_process` makes of a choice. -/
inductive RuntimeEvent (config : WorkerConfig) (job : Job) (loop : RuntimeLoop) :
    JobChoice → JobAt → Prop
  | failed {choice} (error : ExecutionError) (leaves : job.leavesRun loop choice = true) :
      RuntimeEvent config job loop choice (.sendError error)
  | ended {choice} (outcome : RuntimeOutcome)
      (leaves : job.leavesRun loop choice = true ∨ outcome = ⟨none, none, .resourceLimited⟩) :
      RuntimeEvent config job loop choice (Job.afterRuntime outcome)
  | turned {choice loop'} (other : ∀ data, choice ≠ .read (some (.data data)))
      (bytesSent : loop'.bytesSent = loop.bytesSent) :
      RuntimeEvent config job loop choice (.run loop')
  | output {data} (within : saturatingAdd loop.bytesSent data.length ≤ config.runtimeOutputLimit) :
      RuntimeEvent config job loop (.read (some (.data data))) (.sendTerminalOutput
        { loop with bytesSent := saturatingAdd loop.bytesSent data.length } data)

section

variable {link : Bool} {loop : CompileLoop} {choice : JobChoice}

theorem compileControl_event {resizeError : Option String}
    (h : job.compileControl link loop = some job') :
    job'.sent = job.sent ∧ CompileEvent config job link loop (.control resizeError) job'.pc := by
  unfold Job.compileControl at h
  split at h
  · next hcontrols =>
    split at h <;> cases h
    next hclosed =>
    exact ⟨rfl, .stopped .cancelled nofun (.inl (by simpa [Job.leavesCompile, hcontrols]))⟩
  · next control rest hcontrols =>
    cases control with
    | cancel =>
      cases h
      exact ⟨rfl, .stopped .cancelled nofun (.inl (by simp [Job.leavesCompile, hcontrols]))⟩
    | resourceLimit =>
      cases h
      exact ⟨rfl, .stopped .resourceLimited nofun (.inr rfl)⟩
    | resize | input =>
      cases h
      exact ⟨rfl, .turned nofun rfl rfl⟩

theorem compile_event (h : job.compile config link loop choice = some job') :
    job'.sent = job.sent ∧ CompileEvent config job link loop choice job'.pc := by
  unfold Job.compile at h
  split at h
  · split at h <;> cases h
    exact ⟨rfl, .stopped .timedOut nofun (.inl rfl)⟩
  · split at h <;> cases h
    exact ⟨rfl, .exited (.inl rfl) nofun rfl⟩
  · split at h
    · exact compileControl_event h
    · cases h
  · dsimp only at h
    split at h
    · cases h
      exact ⟨rfl, .stopped .outputLimited nofun (.inr rfl)⟩
    · next hwithin =>
      cases h
      exact ⟨rfl, .output (Nat.le_of_not_lt hwithin)⟩
  · dsimp only at h
    split at h
    · next hexit =>
      split at h <;> cases h
      · next hclosed =>
        exact ⟨rfl, .exited (.inr (.inr hclosed)) nofun
          (by simpa [Job.leavesCompile, CompileLoop.closedAfter, hexit] using hclosed)⟩
      · exact ⟨rfl, .turned nofun rfl rfl⟩
    · cases h
      exact ⟨rfl, .turned nofun rfl rfl⟩
  · split at h <;> cases h
    · next hexit => exact ⟨rfl, .exited (.inr (.inl rfl)) nofun (by simp [Job.leavesCompile, hexit])⟩
    · exact ⟨rfl, .turned nofun rfl rfl⟩
  · split at h
    · cases h
    · split at h
      · cases h
        exact ⟨rfl, .failed rfl _ rfl⟩
      · cases h
        exact ⟨rfl, .turned nofun rfl rfl⟩
      · split at h <;> cases h
        · next hclosed =>
          exact ⟨rfl, .exited (.inr (.inr hclosed)) nofun (by simpa [Job.leavesCompile])⟩
        · exact ⟨rfl, .turned nofun rfl rfl⟩
  · cases h

end

section

variable {loop : RuntimeLoop} {choice : JobChoice}

theorem runControl_event {resizeError : Option String}
    (h : job.runControl loop resizeError = some job') :
    job'.sent = job.sent ∧ RuntimeEvent config job loop (.control resizeError) job'.pc := by
  unfold Job.runControl at h
  split at h
  · next hcontrols =>
    split at h <;> cases h
    next hclosed =>
    exact ⟨rfl, .ended ⟨none, none, .cancelled⟩ (.inl (by simpa [Job.leavesRun, hcontrols]))⟩
  · next control rest hcontrols =>
    cases control with
    | input data =>
      cases h
      unfold Job.input
      split
      · next hgone => exact ⟨rfl, .failed _ (by simpa [Job.leavesRun, hcontrols] using hgone)⟩
      split
      · exact ⟨rfl, .ended ⟨none, none, .resourceLimited⟩ (.inr rfl)⟩
      · exact ⟨rfl, .turned nofun rfl⟩
    | resize cols rows =>
      cases resizeError with
      | some detail =>
        cases h
        exact ⟨rfl, .failed _ (by simp [Job.leavesRun, hcontrols])⟩
      | none =>
        cases h
        exact ⟨rfl, .turned nofun rfl⟩
    | cancel =>
      cases h
      exact ⟨rfl, .ended ⟨none, none, .cancelled⟩ (.inl (by simp [Job.leavesRun, hcontrols]))⟩
    | resourceLimit =>
      cases h
      exact ⟨rfl, .ended ⟨none, none, .resourceLimited⟩ (.inr rfl)⟩

theorem run_event (h : job.run config loop choice = some job') :
    job'.sent = job.sent ∧ RuntimeEvent config job loop choice job'.pc := by
  unfold Job.run at h
  split at h
  · split at h <;> cases h
    exact ⟨rfl, .ended ⟨none, none, .timedOut⟩ (.inl rfl)⟩
  · obtain ⟨exit, -, rfl⟩ := Option.map_eq_some_iff.1 h
    exact ⟨rfl, .ended _ (.inl rfl)⟩
  · split at h
    · exact runControl_event h
    · cases h
  · dsimp only at h
    split at h
    · cases h
      exact ⟨rfl, .ended ⟨none, none, .resourceLimited⟩ (.inr rfl)⟩
    · next hwithin =>
      cases h
      exact ⟨rfl, .output (Nat.le_of_not_lt hwithin)⟩
  · split at h <;> cases h
    · next hnone => exact ⟨rfl, .failed _ hnone⟩
    · exact ⟨rfl, .turned (by simp) rfl⟩
  · next event hdata hfailed =>
    -- What is left is `Closed` or the end of the channel.
    have hleaves : job.leavesRun loop (.read event) = loop.processExit.isSome := by
      match event with
      | none | some .closed => rfl
      | some (.data data) => exact absurd rfl (hdata data)
      | some (.failed error) => exact absurd rfl (hfailed error)
    split at h <;> cases h
    · next hexit => exact ⟨rfl, .ended _ (.inl (by rw [hleaves, hexit]; rfl))⟩
    · exact ⟨rfl, .turned (fun data heq => hdata data (JobChoice.read.inj heq)) rfl⟩
  · repeat' split at h
    all_goals cases h
    · exact ⟨rfl, .failed _ rfl⟩
    · exact ⟨rfl, .failed _ rfl⟩
    · exact ⟨rfl, .ended _ (.inl rfl)⟩
    · exact ⟨rfl, .failed _ rfl⟩
  · repeat' split at h
    all_goals cases h
    · exact ⟨rfl, .failed _ rfl⟩
    · exact ⟨rfl, .turned (by simp) rfl⟩
    · exact ⟨rfl, .turned (by simp) rfl⟩
  · cases h

end

/-! ### Moves -/

def JobPhase.endsCompile : JobPhase → Bool
  | .compileFailed | .timedOut | .resourceLimited | .cancelled => true
  | _ => false

def JobPhase.endsRuntime : JobPhase → Bool
  | .exited | .timedOut | .resourceLimited | .cancelled | .sandboxViolation => true
  | _ => false

def JobAt.isCompiling : JobAt → Bool
  | .compileStage _ | .compileSpawn _ | .compile .. | .sendCompilerOutput .. | .sendRunning => true
  | _ => false

def JobAt.isRunning : JobAt → Bool
  | .openPty | .run _ | .sendTerminalOutput .. => true
  | _ => false

def JobAt.isInner : JobAt → Bool
  | .sendError _ | .sendErrorExit | .returned => false
  | _ => true

inductive Flow : JobAt → Option EventPayload → JobAt → Prop
  | stay {pc} : Flow pc none pc
  | fail {pc} (source : pc.isInner = true) (error : ExecutionError) : Flow pc none (.sendError error)
  | prepare : Flow .prepare none .sendCompiling
  | compiling : Flow .sendCompiling (some (.phase JobPhase.compiling.code)) (.compileStage false)
  | compile {pc pc'} (source : pc.isCompiling = true) (target : pc'.isCompiling = true) :
      Flow pc none pc'
  | compilerOutput {link loop stream data} :
      Flow (.sendCompilerOutput link loop stream data)
        (some (.compilerOutput stream.code data)) (.compile link loop)
  | compiled {pc phase code signal reason} (source : pc.isCompiling = true)
      (target : phase.endsCompile = true) : Flow pc none (.sendPhase phase code signal reason)
  | running : Flow .sendRunning (some (.phase JobPhase.running.code)) .openPty
  | run {pc pc'} (source : pc.isRunning = true) (target : pc'.isRunning = true) : Flow pc none pc'
  | terminalOutput {loop data} :
      Flow (.sendTerminalOutput loop data) (some (.terminalOutput data)) (.run loop)
  | ran {pc phase code signal reason} (source : pc.isRunning = true)
      (target : phase.endsRuntime = true) : Flow pc none (.sendPhase phase code signal reason)
  | phase {phase code signal reason} :
      Flow (.sendPhase phase code signal reason) (some (.phase phase.code))
        (.sendExit code signal reason)
  | exit {code signal reason} :
      Flow (.sendExit code signal reason) (some (.exit code signal reason.code)) .returned
  | error {error} : Flow (.sendError error) (some (Job.errorEvent error)) .sendErrorExit
  | errorLost {error} : Flow (.sendError error) none .sendErrorExit
  | errorExit : Flow .sendErrorExit (some Job.errorExit) .returned
  | errorExitLost : Flow .sendErrorExit none .returned

def Flows (job job' : Job) : Prop :=
  ∃ e, Flow job.pc e job'.pc ∧ job'.sent = job.sent ++ e.toList

theorem Flows.silent (h : Flow job.pc none job'.pc) (hsent : job'.sent = job.sent) :
    Flows job job' :=
  ⟨none, h, by rw [hsent, Option.toList_none, List.append_nil]⟩

theorem Flows.fail (h : job.pc.isInner = true) (error : ExecutionError) :
    Flows job (job.fail error) :=
  .silent (.fail h error) rfl

theorem Flows.sendPayload {payload : EventPayload} {next : JobAt} (result : SendResult)
    (hinner : job.pc.isInner = true) (h : Flow job.pc (some payload) next) :
    Flows job (job.sendPayload payload next result) := by
  cases result with
  | sent => exact ⟨some payload, h, rfl⟩
  | backpressure => exact .fail hinner _
  | disconnected => exact .fail hinner _

theorem Flows.sendIgnored {payload : EventPayload} {next : JobAt} (result : SendResult)
    (h : Flow job.pc (some payload) next) (hlost : Flow job.pc none next) :
    Flows job (job.sendIgnored payload next result) := by
  by_cases hresult : result = .sent
  · exact ⟨some payload, h, by rw [Job.sendIgnored, if_pos hresult]; rfl⟩
  · exact .silent hlost (if_neg hresult)

theorem flow_afterCompile {pc : JobAt} (h : pc.isCompiling = true) (link : Bool)
    (outcome : CompileOutcome) : Flow pc none (Job.afterCompile link outcome) := by
  unfold Job.afterCompile
  split
  · split
    · exact .compile h rfl
    · exact .compile h rfl
  all_goals exact .compiled h rfl

theorem flow_afterRuntime {pc : JobAt} (h : pc.isRunning = true) (outcome : RuntimeOutcome) :
    Flow pc none (Job.afterRuntime outcome) := by
  obtain ⟨code, signal, reason⟩ := outcome
  cases reason <;> exact .ran h rfl

theorem prepare_flows (hpc : job.pc = .prepare) (error : Option String) :
    Flows job (job.prepare error) := by
  have hinner : job.pc.isInner = true := by rw [hpc]; rfl
  unfold Job.prepare
  repeat' split
  iterate 4 exact .fail hinner _
  exact .silent (hpc ▸ .prepare) rfl

theorem compile_flows {link : Bool} {loop : CompileLoop} {choice : JobChoice}
    (hpc : job.pc = .compile link loop) (h : job.compile config link loop choice = some job') :
    Flows job job' := by
  obtain ⟨hsent, hevent⟩ := compile_event h
  refine .silent ?_ hsent
  rw [hpc]
  generalize job'.pc = pc at hevent
  cases hevent with
  | failed => exact .fail rfl _
  | stopped outcome => exact flow_afterCompile rfl link outcome
  | exited => exact flow_afterCompile rfl link _
  | turned => exact .compile rfl rfl
  | output => exact .compile rfl rfl

theorem run_flows {loop : RuntimeLoop} {choice : JobChoice} (hpc : job.pc = .run loop)
    (h : job.run config loop choice = some job') : Flows job job' := by
  obtain ⟨hsent, hevent⟩ := run_event h
  refine .silent ?_ hsent
  rw [hpc]
  generalize job'.pc = pc at hevent
  cases hevent with
  | failed => exact .fail rfl _
  | ended outcome => exact flow_afterRuntime rfl outcome
  | turned => exact .run rfl rfl
  | output => exact .run rfl rfl

theorem execute_flows {choice : JobChoice} (h : job.execute config choice = some job') :
    Flows job job' := by
  unfold Job.execute at h
  split at h
  · next hpc =>
    cases h
    exact prepare_flows hpc _
  · next hpc =>
    cases h
    exact .sendPayload _ (by rw [hpc]; rfl) (hpc ▸ .compiling)
  · next link zero hpc =>
    cases h
    refine .silent ?_ rfl
    rw [hpc]
    cases zero with
    | true => exact .compiled rfl rfl
    | false => exact .compile rfl rfl
  · next hpc =>
    split at h
    · cases h
      exact .fail (by rw [hpc]; rfl) _
    · cases h
      exact .silent (hpc ▸ .compile rfl rfl) rfl
  · next hpc => exact compile_flows hpc h
  · next hpc =>
    cases h
    exact .sendPayload _ (by rw [hpc]; rfl) (hpc ▸ .compilerOutput)
  · next hpc =>
    cases h
    exact .sendPayload _ (by rw [hpc]; rfl) (hpc ▸ .running)
  · next hpc =>
    split at h
    · cases h
      exact .fail (by rw [hpc]; rfl) _
    · cases h
      exact .silent (hpc ▸ .run rfl rfl) rfl
  · next hpc => exact run_flows hpc h
  · next hpc =>
    cases h
    exact .sendPayload _ (by rw [hpc]; rfl) (hpc ▸ .terminalOutput)
  · next hpc =>
    cases h
    exact .sendPayload _ (by rw [hpc]; rfl) (hpc ▸ .phase)
  · next hpc =>
    cases h
    exact .sendPayload _ (by rw [hpc]; rfl) (hpc ▸ .exit)
  · next hpc =>
    cases h
    exact .sendIgnored _ (hpc ▸ .error) (hpc ▸ .errorLost)
  · next hpc =>
    cases h
    exact .sendIgnored _ (hpc ▸ .errorExit) (hpc ▸ .errorExitLost)
  · cases h

theorem step_flows {action : JobAction} (h : job.step config action = some job') :
    Flows job job' := by
  cases action with
  | run choice => exact execute_flows h
  | deliver control =>
    simp only [Job.step, Job.deliver] at h
    split at h
    · cases h
    · cases h
      exact .silent .stay rfl
  | dropControls =>
    cases h
    exact .silent .stay rfl
  | write error =>
    simp only [Job.step, Job.write] at h
    split at h
    · cases h
    · cases h
      exact .silent .stay rfl

/-! ### The order of the events -/

def lastPhase (sent : List EventPayload) : Int :=
  ((sent.filterMap EventPayload.phaseCode).getLast?).getD JobPhase.queued.code

def Allowed (last code : Int) : Prop :=
  ∃ p q, protocolPhase last = some p ∧ protocolPhase code = some q ∧ validTransition p q = true

/-- What may be enqueued after the events `before`. -/
def Lawful (before : List EventPayload) (e : EventPayload) : Prop :=
  (∀ x ∈ before, x.isExit = false) ∧
    match e with
    | .phase code => Allowed (lastPhase before) code
    | .compilerOutput .. => lastPhase before = JobPhase.compiling.code
    | .terminalOutput _ => lastPhase before = JobPhase.running.code
    | .exit .. | .error .. => True

/-- What the last phase is while the job stands at a point. -/
def JobAt.Follows (last : Int) : JobAt → Prop
  | .prepare | .sendCompiling => last = JobPhase.queued.code
  | .compileStage _ | .compileSpawn _ | .compile .. | .sendCompilerOutput .. | .sendRunning =>
    last = JobPhase.compiling.code
  | .openPty | .run _ | .sendTerminalOutput .. => last = JobPhase.running.code
  | .sendPhase phase _ _ _ => Allowed last phase.code
  | .sendExit .. | .sendError _ | .sendErrorExit | .returned => True

structure Orderly (job : Job) : Prop where
  follows : job.pc.Follows (lastPhase job.sent)
  lawful : EachAfter Lawful job.sent
  unended : job.pc ≠ .returned → ∀ x ∈ job.sent, x.isExit = false

theorem JobAt.Follows.of_compiling {pc : JobAt} {last : Int} (hpc : pc.isCompiling = true) :
    pc.Follows last ↔ last = JobPhase.compiling.code := by
  cases pc <;> first | exact Iff.rfl | cases hpc

theorem JobAt.Follows.of_running {pc : JobAt} {last : Int} (hpc : pc.isRunning = true) :
    pc.Follows last ↔ last = JobPhase.running.code := by
  cases pc <;> first | exact Iff.rfl | cases hpc

theorem allowed_endsCompile {phase : JobPhase} (h : phase.endsCompile = true) :
    Allowed JobPhase.compiling.code phase.code := by
  cases phase <;> first | exact ⟨_, _, rfl, rfl, rfl⟩ | cases h

theorem allowed_endsRuntime {phase : JobPhase} (h : phase.endsRuntime = true) :
    Allowed JobPhase.running.code phase.code := by
  cases phase <;> first | exact ⟨_, _, rfl, rfl, rfl⟩ | cases h

theorem lastPhase_phase (sent : List EventPayload) (code : Int) :
    lastPhase (sent ++ [.phase code]) = code := by
  simp [lastPhase, EventPayload.phaseCode]

theorem lastPhase_append {e : EventPayload} (h : e.phaseCode = none)
    (sent : List EventPayload) : lastPhase (sent ++ [e]) = lastPhase sent := by
  simp [lastPhase, h]

theorem Flow.follows {pc pc' : JobAt} {e : Option EventPayload} {sent : List EventPayload}
    (h : Flow pc e pc') (hf : pc.Follows (lastPhase sent)) :
    pc'.Follows (lastPhase (sent ++ e.toList)) := by
  cases h with
  | stay => simpa using hf
  | fail => trivial
  | prepare => exact (congrArg lastPhase (List.append_nil sent)).trans hf
  | compiling => exact lastPhase_phase _ _
  | compile source target =>
    rw [JobAt.Follows.of_compiling source] at hf
    rw [JobAt.Follows.of_compiling target, ← hf, Option.toList_none, List.append_nil]
  | compilerOutput => exact (lastPhase_append rfl sent).trans hf
  | compiled source target =>
    rw [JobAt.Follows.of_compiling source] at hf
    rw [Option.toList_none, List.append_nil, hf]
    exact allowed_endsCompile target
  | running => exact lastPhase_phase _ _
  | run source target =>
    rw [JobAt.Follows.of_running source] at hf
    rw [JobAt.Follows.of_running target, ← hf, Option.toList_none, List.append_nil]
  | terminalOutput => exact (lastPhase_append rfl sent).trans hf
  | ran source target =>
    rw [JobAt.Follows.of_running source] at hf
    rw [Option.toList_none, List.append_nil, hf]
    exact allowed_endsRuntime target
  | phase => trivial
  | exit => trivial
  | error => trivial
  | errorLost => trivial
  | errorExit => trivial
  | errorExitLost => trivial

/-- The event that a move enqueues is lawful, and an exit is the end. -/
theorem Flow.lawful {pc pc' : JobAt} {e : EventPayload} {sent : List EventPayload}
    (h : Flow pc (some e) pc') (hf : pc.Follows (lastPhase sent))
    (hunended : ∀ x ∈ sent, x.isExit = false) :
    Lawful sent e ∧ (pc' ≠ .returned → e.isExit = false) := by
  refine ⟨⟨hunended, ?_⟩, ?_⟩
  · cases h with
    | compiling => exact ⟨_, _, by rw [show lastPhase sent = _ from hf]; rfl, rfl, rfl⟩
    | compilerOutput => exact hf
    | running => exact ⟨_, _, by rw [show lastPhase sent = _ from hf]; rfl, rfl, rfl⟩
    | terminalOutput => exact hf
    | phase => exact hf
    | exit => trivial
    | error => trivial
    | errorExit => trivial
  · intro hreturned
    cases h with
    | exit => exact absurd rfl hreturned
    | errorExit => exact absurd rfl hreturned
    | compiling => rfl
    | compilerOutput => rfl
    | running => rfl
    | terminalOutput => rfl
    | phase => rfl
    | error => rfl

theorem Flow.of_returned {pc' : JobAt} {e : Option EventPayload} (h : Flow .returned e pc') :
    e = none ∧ pc' = .returned := by
  cases h with
  | stay => exact ⟨rfl, rfl⟩
  | fail source => cases source
  | compile source => cases source
  | compiled source => cases source
  | run source => cases source
  | ran source => cases source

theorem Orderly.flows (h : Orderly job) (hf : Flows job job') : Orderly job' := by
  obtain ⟨e, hflow, hsent⟩ := hf
  have hfollows := hflow.follows h.follows
  rw [← hsent] at hfollows
  cases e with
  | none =>
    rw [Option.toList_none, List.append_nil] at hsent
    refine ⟨hfollows, hsent ▸ h.lawful, fun hpc' => hsent ▸ h.unended fun hpc => ?_⟩
    rw [hpc] at hflow
    exact hpc' hflow.of_returned.2
  | some e =>
    have hpc : job.pc ≠ .returned := fun hpc => by
      rw [hpc] at hflow
      cases hflow.of_returned.1
    obtain ⟨hlawful, hexit⟩ := hflow.lawful h.follows (h.unended hpc)
    refine ⟨hfollows, hsent ▸ h.lawful.append hlawful, fun hpc' x hx => ?_⟩
    rw [hsent] at hx
    rcases List.mem_append.1 hx with hx | hx
    · exact h.unended hpc x hx
    · rw [List.mem_singleton.1 hx]
      exact hexit hpc'

theorem orderly (h : Transition.Reachable (jobSystem config a) job) : Orderly job := by
  refine h.invariant ⟨rfl, .nil, fun _ x hx => nomatch hx⟩ ?_
  intro job job' action _ hi _ hstep
  exact hi.flows (step_flows hstep)

/-! ### Replaying the events into the API -/

/-- `AppState::apply_phase` for the phase events; `none` if it refuses one. -/
def replayPhase (j : Uuid) (sh : Shared) : EventPayload → Option Shared
  | .phase code =>
    match applyPhase sh j code with
    | some ⟨sh', .applyPhaseSend _ _, _⟩ => some sh'
    | _ => none
  | _ => some sh

/-- Session `j` is live and unlocked, and its phase has the code `code`. -/
structure InPhase (sh : Shared) (j : Uuid) (code : Int) : Prop where
  unlocked : sh.innerLock j = none
  live : (sh.inner j).finished = false
  phase : protocolPhase code = some (sh.inner j).phase

theorem InPhase.replay {sh : Shared} {j : Uuid} {last : List EventPayload} {e : EventPayload}
    (h : InPhase sh j (lastPhase last)) (he : Lawful last e) :
    ∃ sh', replayPhase j sh e = some sh' ∧ InPhase sh' j (lastPhase (last ++ [e])) := by
  cases e with
  | phase code =>
    obtain ⟨p, q, hp, hq, hvalid⟩ := he.2
    obtain rfl : (sh.inner j).phase = p := Option.some.inj (h.phase.symm.trans hp)
    refine ⟨sh.setInner j { sh.inner j with phase := q }, ?_, ?_⟩
    · simp [replayPhase, applyPhase, hq, h.unlocked, h.live, hvalid, Executor.goto]
    · rw [lastPhase_phase]
      exact ⟨h.unlocked, by simpa [Shared.setInner] using h.live, by simp [Shared.setInner, hq]⟩
  | compilerOutput => exact ⟨sh, rfl, by rwa [lastPhase_append rfl]⟩
  | terminalOutput => exact ⟨sh, rfl, by rwa [lastPhase_append rfl]⟩
  | exit => exact ⟨sh, rfl, by rwa [lastPhase_append rfl]⟩
  | error => exact ⟨sh, rfl, by rwa [lastPhase_append rfl]⟩

theorem replay_of_lawful {sh : Shared} {j : Uuid} {sent : List EventPayload}
    (hlawful : EachAfter Lawful sent) (h : InPhase sh j JobPhase.queued.code) :
    ∃ sh', sent.foldlM (replayPhase j) sh = some sh' ∧ InPhase sh' j (lastPhase sent) := by
  induction sent using List.reverseRecOn with
  | nil => exact ⟨sh, rfl, h⟩
  | append_singleton sent e ih =>
    obtain ⟨sh₁, hfold, hphase⟩ := ih fun before x after hsplit =>
      hlawful before x (after ++ [e]) (by rw [hsplit, List.append_assoc, List.cons_append])
    obtain ⟨sh', hreplay, hphase'⟩ := hphase.replay (hlawful sent e [] rfl)
    refine ⟨sh', ?_, hphase'⟩
    rw [List.foldlM_append, hfold]
    simpa using hreplay

theorem countP_exit_le {sent : List EventPayload} (h : EachAfter Lawful sent) :
    sent.countP EventPayload.isExit ≤ 1 := by
  rcases List.eq_nil_or_concat' sent with rfl | ⟨front, e, rfl⟩
  · simp
  · have hfront := (h front e [] rfl).1
    rw [List.countP_append, List.countP_eq_zero.2 (by simpa using hfront), Nat.zero_add]
    exact List.countP_le_length

theorem mem_of_lastPhase {before : List EventPayload} {code : Int}
    (h : lastPhase before = code) (hcode : code ≠ JobPhase.queued.code) :
    (before.filterMap EventPayload.phaseCode).getLast? = some code := by
  unfold lastPhase at h
  cases hlast : (before.filterMap EventPayload.phaseCode).getLast? with
  | none =>
    rw [hlast] at h
    exact absurd h.symm hcode
  | some last =>
    rw [hlast] at h
    exact congrArg some h

/-- The events that a run of a job enqueues, replayed into a session that is queued: none of
its phases is refused. No event comes after an exit, so there is at most one. Program output
comes after the phase Running, compiler output while Compiling is the last phase. -/
theorem worker_and_api_agree_on_life_cycle (h : Transition.Reachable (jobSystem config a) job) :
    (∀ (sh : Shared) (j : Uuid), sh.innerLock j = none → (sh.inner j).finished = false →
      (sh.inner j).phase = .queued → ∃ sh', job.sent.foldlM (replayPhase j) sh = some sh') ∧
    job.sent.countP EventPayload.isExit ≤ 1 ∧
    EachAfter (fun before _ => ∀ x ∈ before, x.isExit = false) job.sent ∧
    EachAfter (fun before e => e.isTerminalOutput = true →
      .phase JobPhase.running.code ∈ before) job.sent ∧
    EachAfter (fun before e => e.isCompilerOutput = true →
      (before.filterMap EventPayload.phaseCode).getLast? = some JobPhase.compiling.code) job.sent := by
  have hlawful := (orderly h).lawful
  refine ⟨fun sh j hunlocked hlive hqueued => ?_, countP_exit_le hlawful, ?_, ?_, ?_⟩
  · obtain ⟨sh', hfold, -⟩ := replay_of_lawful hlawful ⟨hunlocked, hlive, by rw [hqueued]; rfl⟩
    exact ⟨sh', hfold⟩
  · intro before e after hsplit
    exact (hlawful before e after hsplit).1
  · intro before e after hsplit he
    cases e with
    | terminalOutput data =>
      have hlast := mem_of_lastPhase (hlawful before _ after hsplit).2 (by decide)
      obtain ⟨x, hx, hcode⟩ := List.mem_filterMap.1 (List.mem_of_getLast? hlast)
      cases x <;> cases hcode
      exact hx
    | _ => cases he
  · intro before e after hsplit he
    cases e with
    | compilerOutput stream data =>
      exact mem_of_lastPhase (hlawful before _ after hsplit).2 (by decide)
    | _ => cases he

/-- A compiled program prints one line and exits, and the exit is not enqueued in time: the
error and a second exit follow. -/
def lateExit : List JobAction := List.map JobAction.run
  [.workspace none, .send .sent, .remaining false, .spawn none,
    .pipe (some (.data .stderr [119])), .send .sent, .exitCode (.ok (some (some 0))), .drained,
    .remaining false, .spawn none, .exitCode (.ok (some (some 0))), .drained, .send .sent,
    .spawn none, .read (some (.data [104, 105])), .send .sent,
    .exitStatus (.ok (some ⟨0, none⟩)), .drained, .send .sent, .send .backpressure, .send .sent,
    .send .sent]

def helloWorld : Assignment :=
  ⟨.canonical 7, 80, 24, [⟨"main.c", utf8 "int main(void)\x7b\x7d"⟩]⟩

theorem late_exit_follows_life_cycle :
    ∃ job, Transition.Reachable (jobSystem .forTest helloWorld) job ∧
      (job.sent.filterMap EventPayload.phaseCode = [2, 4, 5] ∧ job.sent.length = 7) ∧
      job.sent.countP EventPayload.isExit ≤ 1 := by
  obtain ⟨job, hr, htest⟩ := Transition.reachable_of_execute
    (f := Job.step .forTest) (i := .new helloWorld) lateExit
    (p := fun job => job.sent.filterMap EventPayload.phaseCode = [2, 4, 5] ∧ job.sent.length = 7)
    (by decide +kernel)
  exact ⟨job, hr, of_decide_eq_true htest, (worker_and_api_agree_on_life_cycle hr).2.1⟩

end SmartC.Worker
