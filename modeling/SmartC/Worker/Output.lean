import SmartC.Executor.Output
import SmartC.Worker.Slot

/-!
# How much output a job sends

`run_compile_process` counts the output of one process, the compiler or the
linker, and `run_pty_process` that of the program. A `Gauge` compares such a
counter with the bytes that the job has enqueued. The compiler and the program
stay within their limits by their own count; the linker starts again at zero,
so its output has to fit into what the compiler has left.
-/

namespace SmartC

def WorkerMessage.payloadOf (j : Uuid) : WorkerMessage → Option EventPayload
  | .event e => e.payloadOf j
  | _ => none

namespace Worker

open Function (update)

/-! ### Gauges -/

/-- One kind of output: its bytes in an event, the bytes that a job is about to enqueue at a
point, and what it has counted there, if its counter is that of all output of this kind. -/
structure Gauge where
  bytes : EventPayload → Nat
  block : JobAt → Nat
  count : JobAt → Option Nat

def compilerGauge : Gauge where
  bytes := EventPayload.compilerBytes
  block
    | .sendCompilerOutput _ _ _ data => data.length
    | _ => 0
  count
    | .prepare | .sendCompiling | .compileStage false | .compileSpawn false => some 0
    | .compile false loop | .sendCompilerOutput false loop _ _ => some loop.bytesSent
    | _ => none

def terminalGauge : Gauge where
  bytes := EventPayload.terminalBytes
  block
    | .sendTerminalOutput _ data => data.length
    | _ => 0
  count
    | .run loop | .sendTerminalOutput loop _ => some loop.bytesSent
    | .sendPhase .. | .sendExit .. | .sendError _ | .sendErrorExit | .returned => none
    | _ => some 0

def Gauge.total (g : Gauge) (job : Job) : Nat := outputBytes g.bytes job.sent + g.block job.pc

structure Gauge.Within (g : Gauge) (limit : Nat) (job : Job) : Prop where
  bounded : g.total job ≤ limit
  counted : ∀ n, g.count job.pc = some n → g.total job = n

/-- What a move enqueues was counted before. -/
def Gauge.Passes (g : Gauge) (pc : JobAt) (e : Option EventPayload) (pc' : JobAt) : Prop :=
  outputBytes g.bytes e.toList + g.block pc' ≤ g.block pc ∧
    ∀ n, g.count pc' = some n →
      g.count pc = some n ∧ outputBytes g.bytes e.toList + g.block pc' = g.block pc

section

variable {g : Gauge} {limit : Nat} {config : WorkerConfig} {job job' : Job} {choice : JobChoice}

theorem Gauge.Within.passes {e : Option EventPayload} (h : g.Within limit job)
    (hp : g.Passes job.pc e job'.pc) (hsent : job'.sent = job.sent ++ e.toList) :
    g.Within limit job' := by
  obtain ⟨hle, hcount⟩ := hp
  have htotal : g.total job' =
      outputBytes g.bytes job.sent + (outputBytes g.bytes e.toList + g.block job'.pc) := by
    rw [Gauge.total, hsent, outputBytes_append, Nat.add_assoc]
  constructor
  · rw [htotal]
    exact (Nat.add_le_add_left hle _).trans h.bounded
  · intro n hn
    obtain ⟨hn, heq⟩ := hcount n hn
    rw [htotal, heq]
    exact h.counted n hn

theorem Gauge.Within.reads {data : Bytes} (hsent : job'.sent = job.sent)
    (hblock : g.block job.pc = 0) (hblock' : g.block job'.pc = data.length)
    (hbounded : g.total job + data.length ≤ limit)
    (hcount : ∀ n, g.count job'.pc = some n → g.total job + data.length = n) :
    g.Within limit job' := by
  have htotal : g.total job' = g.total job + data.length := by
    rw [Gauge.total, Gauge.total, hsent, hblock, hblock', Nat.add_zero]
  exact ⟨by rwa [htotal], by rwa [htotal]⟩

structure Metered (job job' : Job) (e : Option EventPayload) : Prop where
  sent : job'.sent = job.sent ++ e.toList
  compiler : compilerGauge.Passes job.pc e job'.pc
  terminal : terminalGauge.Passes job.pc e job'.pc

/-- What a step does to the output: a loop reads some, or nothing new is read. -/
inductive OutputStep (config : WorkerConfig) (job : Job) (choice : JobChoice) (job' : Job) : Prop
  | metered {e} (metered : Metered job job' e)
  | compiler {link loop stream data} (at_ : job.pc = .compile link loop)
      (read : choice = .pipe (some (.data stream data)))
      (within : saturatingAdd loop.bytesSent data.length ≤ config.compileOutputLimit)
      (sent : job'.sent = job.sent)
      (next : job'.pc = .sendCompilerOutput link
        { loop with bytesSent := saturatingAdd loop.bytesSent data.length } stream data)
  | terminal {loop data} (at_ : job.pc = .run loop)
      (within : saturatingAdd loop.bytesSent data.length ≤ config.runtimeOutputLimit)
      (sent : job'.sent = job.sent)
      (next : job'.pc = .sendTerminalOutput
        { loop with bytesSent := saturatingAdd loop.bytesSent data.length } data)

def Gauge.Quiet (g : Gauge) (pc pc' : JobAt) : Prop :=
  g.block pc' = 0 ∧ (g.count pc' = none ∨ g.count pc' = g.count pc ∧ g.block pc = 0)

theorem Gauge.Quiet.passes {pc pc' : JobAt} (h : g.Quiet pc pc') : g.Passes pc none pc' := by
  obtain ⟨hblock, hcount⟩ := h
  refine ⟨by simp [hblock], fun n hn => ?_⟩
  rcases hcount with hnone | ⟨hsame, hzero⟩
  · rw [hnone] at hn
    cases hn
  · exact ⟨hsame ▸ hn, by simp [hblock, hzero]⟩

theorem Gauge.Passes.send {pc pc' : JobAt} {payload : EventPayload}
    (hbytes : g.bytes payload = g.block pc) (hblock : g.block pc' = 0)
    (hcount : g.count pc' = none ∨ g.count pc' = g.count pc) : g.Passes pc (some payload) pc' := by
  have htotal : outputBytes g.bytes (some payload).toList + g.block pc' = g.block pc := by
    rw [Option.toList_some, outputBytes_singleton, hblock, Nat.add_zero, hbytes]
  refine ⟨htotal.le, fun n hn => ⟨?_, htotal⟩⟩
  rcases hcount with hnone | hsame
  · rw [hnone] at hn
    cases hn
  · exact hsame ▸ hn

theorem OutputStep.quiet (hsent : job'.sent = job.sent)
    (hcompiler : compilerGauge.Quiet job.pc job'.pc)
    (hterminal : terminalGauge.Quiet job.pc job'.pc) : OutputStep config job choice job' :=
  .metered (e := none) ⟨by rw [hsent, Option.toList_none, List.append_nil], hcompiler.passes,
    hterminal.passes⟩

theorem OutputStep.fail (error : ExecutionError) :
    OutputStep config job choice (job.fail error) :=
  .quiet rfl ⟨rfl, .inl rfl⟩ ⟨rfl, .inl rfl⟩

theorem OutputStep.sendPayload {pc next : JobAt} {payload : EventPayload} (result : SendResult)
    (hpc : job.pc = pc) (hcompiler : compilerGauge.Passes pc (some payload) next)
    (hterminal : terminalGauge.Passes pc (some payload) next) :
    OutputStep config job choice (job.sendPayload payload next result) := by
  subst hpc
  cases result with
  | sent => exact .metered ⟨rfl, hcompiler, hterminal⟩
  | backpressure => exact .fail _
  | disconnected => exact .fail _

theorem OutputStep.sendIgnored {next : JobAt} {payload : EventPayload} (result : SendResult)
    (hcompiler : compilerGauge.Passes job.pc (some payload) next)
    (hterminal : terminalGauge.Passes job.pc (some payload) next)
    (hlost : compilerGauge.Quiet job.pc next ∧ terminalGauge.Quiet job.pc next) :
    OutputStep config job choice (job.sendIgnored payload next result) := by
  by_cases hresult : result = .sent
  · have hsent : (job.sendIgnored payload next result).sent = job.sent ++ [payload] :=
      if_pos hresult
    exact .metered (e := some payload) ⟨hsent, hcompiler, hterminal⟩
  · exact .quiet (if_neg hresult) hlost.1 hlost.2

theorem afterCompile_quiet (link : Bool) (loop : CompileLoop) (outcome : CompileOutcome) :
    compilerGauge.Quiet (.compile link loop) (Job.afterCompile link outcome) ∧
      terminalGauge.Quiet (.compile link loop) (Job.afterCompile link outcome) := by
  unfold Job.afterCompile
  split
  · split
    · exact ⟨⟨rfl, .inl rfl⟩, rfl, .inr ⟨rfl, rfl⟩⟩
    · exact ⟨⟨rfl, .inl rfl⟩, rfl, .inr ⟨rfl, rfl⟩⟩
  all_goals exact ⟨⟨rfl, .inl rfl⟩, rfl, .inl rfl⟩

theorem compile_output {link : Bool} {loop : CompileLoop} (hpc : job.pc = .compile link loop)
    (h : job.compile config link loop choice = some job') :
    OutputStep config job choice job' := by
  obtain ⟨hsent, hevent⟩ := compile_event h
  generalize hpc' : job'.pc = pc at hevent
  have hquiet : compilerGauge.Quiet (.compile link loop) pc →
      terminalGauge.Quiet (.compile link loop) pc → OutputStep config job choice job' :=
    fun hcompiler hterminal =>
      .quiet hsent (by rwa [hpc, hpc']) (by rwa [hpc, hpc'])
  cases hevent with
  | failed => exact hquiet ⟨rfl, .inl rfl⟩ ⟨rfl, .inl rfl⟩
  | stopped | exited =>
    exact hquiet (afterCompile_quiet link loop _).1 (afterCompile_quiet link loop _).2
  | turned other bytesSent =>
    refine hquiet ⟨rfl, .inr ⟨?_, rfl⟩⟩ ⟨rfl, .inr ⟨rfl, rfl⟩⟩
    cases link with
    | false => exact congrArg some bytesSent
    | true => rfl
  | output within => exact .compiler hpc rfl within hsent hpc'

theorem run_output {loop : RuntimeLoop} (hpc : job.pc = .run loop)
    (h : job.run config loop choice = some job') : OutputStep config job choice job' := by
  obtain ⟨hsent, hevent⟩ := run_event h
  generalize hpc' : job'.pc = pc at hevent
  have hquiet : compilerGauge.Quiet (.run loop) pc →
      terminalGauge.Quiet (.run loop) pc → OutputStep config job choice job' :=
    fun hcompiler hterminal =>
      .quiet hsent (by rwa [hpc, hpc']) (by rwa [hpc, hpc'])
  cases hevent with
  | failed => exact hquiet ⟨rfl, .inl rfl⟩ ⟨rfl, .inl rfl⟩
  | ended outcome => exact hquiet ⟨rfl, .inl rfl⟩ ⟨rfl, .inl rfl⟩
  | turned other bytesSent =>
    exact hquiet ⟨rfl, .inl rfl⟩ ⟨rfl, .inr ⟨congrArg some bytesSent, rfl⟩⟩
  | output within => exact .terminal hpc within hsent hpc'

theorem prepare_output (hpc : job.pc = .prepare) (error : Option String) :
    OutputStep config job choice (job.prepare error) := by
  unfold Job.prepare
  repeat' split
  iterate 4 exact .fail _
  refine .quiet rfl ?_ ?_ <;> rw [hpc] <;> exact ⟨rfl, .inr ⟨rfl, rfl⟩⟩

theorem execute_output (h : job.execute config choice = some job') :
    OutputStep config job choice job' := by
  unfold Job.execute at h
  -- one case for each point of the job, in the order of `Job.execute`
  split at h
  · next hpc =>
    cases h
    exact prepare_output hpc _
  · next hpc =>
    cases h
    exact .sendPayload _ hpc (.send rfl rfl (.inr rfl)) (.send rfl rfl (.inr rfl))
  · next link zero hpc =>
    cases h
    cases zero with
    | true => exact .quiet rfl ⟨rfl, .inl rfl⟩ ⟨rfl, .inl rfl⟩
    | false =>
      refine .quiet rfl ?_ ?_ <;> rw [hpc] <;> refine ⟨rfl, .inr ⟨?_, rfl⟩⟩ <;> cases link <;> rfl
  · next link error hpc =>
    split at h <;> cases h
    · exact .fail _
    · refine .quiet rfl ?_ ?_ <;> rw [hpc] <;> refine ⟨rfl, .inr ⟨?_, rfl⟩⟩ <;> cases link <;> rfl
  · next hpc => exact compile_output hpc h
  · next link loop stream data result hpc =>
    cases h
    refine .sendPayload _ hpc (.send rfl rfl (.inr ?_)) (.send rfl rfl (.inr rfl))
    cases link <;> rfl
  · next hpc =>
    cases h
    exact .sendPayload _ hpc (.send rfl rfl (.inr rfl)) (.send rfl rfl (.inr rfl))
  · next hpc =>
    split at h <;> cases h
    · exact .fail _
    · refine .quiet rfl ?_ ?_ <;> rw [hpc] <;> exact ⟨rfl, .inr ⟨rfl, rfl⟩⟩
  · next hpc => exact run_output hpc h
  · next hpc =>
    cases h
    exact .sendPayload _ hpc (.send rfl rfl (.inr rfl)) (.send rfl rfl (.inr rfl))
  · next hpc =>
    cases h
    exact .sendPayload _ hpc (.send rfl rfl (.inr rfl)) (.send rfl rfl (.inr rfl))
  · next hpc =>
    cases h
    exact .sendPayload _ hpc (.send rfl rfl (.inr rfl)) (.send rfl rfl (.inr rfl))
  · next hpc =>
    cases h
    refine .sendIgnored _ ?_ ?_ ?_ <;> rw [hpc]
    · exact .send rfl rfl (.inr rfl)
    · exact .send rfl rfl (.inr rfl)
    · exact ⟨⟨rfl, .inl rfl⟩, rfl, .inl rfl⟩
  · next hpc =>
    cases h
    refine .sendIgnored _ ?_ ?_ ?_ <;> rw [hpc]
    · exact .send rfl rfl (.inr rfl)
    · exact .send rfl rfl (.inr rfl)
    · exact ⟨⟨rfl, .inl rfl⟩, rfl, .inl rfl⟩
  · cases h

/-! ### The limits -/

/-- The linker's next output fits into what the compiler has left of the limit, or is more than
the limit by itself. -/
def Job.linkFits (config : WorkerConfig) (job : Job) (choice : JobChoice) : Bool :=
  match job.pc, choice with
  | .compile true loop, .pipe (some (.data _ data)) =>
    decide (outputBytes EventPayload.compilerBytes job.sent + data.length ≤
      config.compileOutputLimit ∨
      config.compileOutputLimit < saturatingAdd loop.bytesSent data.length)
  | _, _ => true

theorem saturatingAdd_of_le {a b limit : Nat} (h : saturatingAdd a b ≤ limit)
    (hlimit : limit < 2 ^ 64 - 1) : saturatingAdd a b = a + b := by
  unfold saturatingAdd at h ⊢
  omega

structure Job.Limited (config : WorkerConfig) (job : Job) : Prop where
  compiler : compilerGauge.Within config.compileOutputLimit job
  terminal : terminalGauge.Within config.runtimeOutputLimit job

theorem Job.Limited.new (a : Assignment) : (Job.new a).Limited config :=
  ⟨⟨Nat.zero_le _, fun _ hn => Option.some.inj hn⟩, ⟨Nat.zero_le _, fun _ hn => Option.some.inj hn⟩⟩

theorem Job.Limited.absent (j : Uuid) : (Job.absent j).Limited config :=
  ⟨⟨Nat.zero_le _, nofun⟩, ⟨Nat.zero_le _, nofun⟩⟩

theorem Job.Limited.same (h : job.Limited config) (hpc : job'.pc = job.pc)
    (hsent : job'.sent = job.sent) : job'.Limited config := by
  have htotal : ∀ g : Gauge, g.total job' = g.total job := fun g => by
    rw [Gauge.total, Gauge.total, hpc, hsent]
  exact ⟨⟨htotal _ ▸ h.compiler.bounded, hpc ▸ htotal compilerGauge ▸ h.compiler.counted⟩,
    ⟨htotal _ ▸ h.terminal.bounded, hpc ▸ htotal terminalGauge ▸ h.terminal.counted⟩⟩

/-- The compiler counts all that has been sent; what the linker sends has to fit. -/
theorem compiler_reads {link : Bool} {loop : CompileLoop} {stream : OutputStream} {data : Bytes}
    (h : compilerGauge.Within config.compileOutputLimit job)
    (hfits : job.linkFits config (.pipe (some (.data stream data))) = true)
    (hpc : job.pc = .compile link loop)
    (hwithin : loop.bytesSent + data.length ≤ config.compileOutputLimit) :
    compilerGauge.total job + data.length ≤ config.compileOutputLimit ∧
      (link = false → compilerGauge.total job = loop.bytesSent) := by
  cases link with
  | false =>
    have hcounted := h.counted loop.bytesSent (by rw [hpc]; rfl)
    exact ⟨by rwa [hcounted], fun _ => hcounted⟩
  | true =>
    have htotal : compilerGauge.total job = outputBytes EventPayload.compilerBytes job.sent := by
      rw [Gauge.total, hpc]
      rfl
    simp only [Job.linkFits, hpc, decide_eq_true_eq] at hfits
    refine ⟨htotal ▸ hfits.resolve_right ?_, nofun⟩
    unfold saturatingAdd
    omega

theorem Job.Limited.execute (hcompile : config.compileOutputLimit < 2 ^ 64 - 1)
    (hruntime : config.runtimeOutputLimit < 2 ^ 64 - 1) (h : job.Limited config)
    (hfits : job.linkFits config choice = true) (hs : job.execute config choice = some job') :
    job'.Limited config := by
  cases execute_output hs with
  | metered m => exact ⟨h.compiler.passes m.compiler m.sent, h.terminal.passes m.terminal m.sent⟩
  | @compiler link loop stream data at_ read within sent next =>
    have hsum := saturatingAdd_of_le within hcompile
    rw [hsum] at within next
    rw [read] at hfits
    obtain ⟨hbounded, hcounted⟩ := compiler_reads h.compiler hfits at_ within
    refine ⟨Gauge.Within.reads sent (by rw [at_]; rfl) (by rw [next]; rfl) hbounded fun n hn => ?_, ?_⟩
    · rw [next] at hn
      cases link with
      | false => exact (congrArg (· + _) (hcounted rfl)).trans (Option.some.inj hn)
      | true => cases hn
    · refine h.terminal.passes (e := none) ?_ (by rw [sent, Option.toList_none, List.append_nil])
      rw [at_, next]
      exact Gauge.Quiet.passes ⟨rfl, .inr ⟨rfl, rfl⟩⟩
  | @terminal loop data at_ within sent next =>
    have hsum := saturatingAdd_of_le within hruntime
    rw [hsum] at within next
    have hcounted := h.terminal.counted loop.bytesSent (by rw [at_]; rfl)
    refine ⟨?_, Gauge.Within.reads sent (by rw [at_]; rfl) (by rw [next]; rfl) (by rwa [hcounted])
      fun n hn => ?_⟩
    · refine h.compiler.passes (e := none) ?_ (by rw [sent, Option.toList_none, List.append_nil])
      rw [at_, next]
      exact Gauge.Quiet.passes ⟨rfl, .inr ⟨rfl, rfl⟩⟩
    · rw [next] at hn
      exact (congrArg (· + _) hcounted).trans (Option.some.inj hn)

/-! ### More output than allowed -/

/-- The next output of a process exceeds the limit of its kind for the whole job. -/
def Job.overruns (config : WorkerConfig) (job : Job) (choice : JobChoice) : Prop :=
  (∃ link loop stream data, job.pc = .compile link loop ∧
    choice = .pipe (some (.data stream data)) ∧
    config.compileOutputLimit < outputBytes EventPayload.compilerBytes job.sent + data.length) ∨
  ∃ loop data, job.pc = .run loop ∧ choice = .read (some (.data data)) ∧
    config.runtimeOutputLimit < outputBytes EventPayload.terminalBytes job.sent + data.length

def limitedEnd : List EventPayload :=
  [.phase JobPhase.resourceLimited.code, .exit none none ExitReason.resourceLimited.code]

theorem Job.Limited.overruns (hcompile : config.compileOutputLimit < 2 ^ 64 - 1)
    (hruntime : config.runtimeOutputLimit < 2 ^ 64 - 1) (h : job.Limited config)
    (hfits : job.linkFits config choice = true) (hover : job.overruns config choice)
    (hs : job.execute config choice = some job') :
    job'.sent = job.sent ∧ job'.pc = .sendPhase .resourceLimited none none .resourceLimited := by
  rcases hover with ⟨link, loop, stream, data, hpc, rfl, hover⟩ | ⟨loop, data, hpc, rfl, hover⟩
  · have hstop : config.compileOutputLimit < saturatingAdd loop.bytesSent data.length := by
      by_contra hwithin
      have hle := Nat.le_of_not_lt hwithin
      rw [saturatingAdd_of_le hle hcompile] at hle
      have hbounded := (compiler_reads h.compiler hfits hpc hle).1
      rw [Gauge.total, hpc] at hbounded
      exact absurd hover (Nat.not_lt.2 hbounded)
    simp only [Job.execute, hpc, Job.compile, if_pos hstop] at hs
    cases hs
    exact ⟨rfl, rfl⟩
  · have hstop : config.runtimeOutputLimit < saturatingAdd loop.bytesSent data.length := by
      by_contra hwithin
      have hle := Nat.le_of_not_lt hwithin
      rw [saturatingAdd_of_le hle hruntime] at hle
      have hcounted := h.terminal.counted loop.bytesSent (by rw [hpc]; rfl)
      rw [Gauge.total, hpc] at hcounted
      rw [← hcounted] at hle
      exact absurd hover (Nat.not_lt.2 hle)
    simp only [Job.execute, hpc, Job.run, if_pos hstop] at hs
    cases hs
    exact ⟨rfl, rfl⟩

/-- A job that has met a limit enqueues two more events and returns. -/
theorem returns_limited (hpc : job.pc = .sendPhase .resourceLimited none none .resourceLimited) :
    ∃ job₁ job₂, job.execute config (.send .sent) = some job₁ ∧
      job₁.execute config (.send .sent) = some job₂ ∧ job₂.pc = .returned ∧
      job₂.sent = job.sent ++ limitedEnd := by
  have hphase : job.execute config (.send .sent) = some (job.sendPayload
      (.phase JobPhase.resourceLimited.code) (.sendExit none none .resourceLimited) .sent) := by
    simp only [Job.execute, hpc]
  exact ⟨_, _, hphase, rfl, rfl, List.append_assoc _ _ _⟩

/-! ### A process that prints too much -/

/-- The process in whose loop the job is prints `printed` bytes in its life. With what the stage
before it has printed, that is more than the limit. -/
def Job.exceeds (config : WorkerConfig) (printed : Nat) (job : Job) : Prop :=
  match job.pc with
  | .compile _ loop | .sendCompilerOutput _ loop _ _ =>
    ∃ before, before + loop.bytesSent = compilerGauge.total job ∧
      config.compileOutputLimit < before + printed
  | .run _ | .sendTerminalOutput .. => config.runtimeOutputLimit < printed
  | _ => False

/-- The job has met a limit and sends the events of that end, or has returned after them. -/
inductive Job.EndsLimited (job : Job) : Prop
  | phase (at_ : job.pc = .sendPhase .resourceLimited none none .resourceLimited)
  | exit {before} (at_ : job.pc = .sendExit none none .resourceLimited)
      (sent : job.sent = before ++ [.phase JobPhase.resourceLimited.code])
  | returned {before} (at_ : job.pc = .returned) (sent : job.sent = before ++ limitedEnd)

/-- A loop that ends for another reason than a limit has received all that its process printed,
and a message is enqueued in time. -/
def Job.drains (printed : Nat) (job : Job) (choice : JobChoice) : Bool :=
  match job.pc, choice with
  | .compile _ loop, choice => !job.leavesCompile loop choice || loop.bytesSent = printed
  | .run loop, choice => !job.leavesRun loop choice || loop.bytesSent = printed
  | _, .send result => result = .sent
  | _, _ => true

variable {printed : Nat}

theorem Job.drains_compile {link : Bool} {loop : CompileLoop} (hpc : job.pc = .compile link loop)
    (h : job.drains printed choice = true) (hleaves : job.leavesCompile loop choice = true) :
    loop.bytesSent = printed := by
  simpa [Job.drains, hpc, hleaves] using h

theorem Job.drains_run {loop : RuntimeLoop} (hpc : job.pc = .run loop)
    (h : job.drains printed choice = true) (hleaves : job.leavesRun loop choice = true) :
    loop.bytesSent = printed := by
  simpa [Job.drains, hpc, hleaves] using h

theorem exceeds_compile {link : Bool} {loop : CompileLoop}
    (hcompile : config.compileOutputLimit < 2 ^ 64 - 1) (hlimited : job.Limited config)
    (hpc : job.pc = .compile link loop) (hdrains : job.drains printed choice = true)
    (h : job.exceeds config printed) (hs : job.compile config link loop choice = some job') :
    job'.exceeds config printed ∨ job'.EndsLimited := by
  rw [Job.exceeds, hpc] at h
  obtain ⟨before, hbefore, hover⟩ := h
  -- All that was received is within the limit, so something is left to receive.
  have hstays : job.leavesCompile loop choice = true → False := fun hleaves => by
    have hall := Job.drains_compile hpc hdrains hleaves
    have hbounded := hlimited.compiler.bounded
    omega
  obtain ⟨hsent, hevent⟩ := compile_event hs
  generalize hpc' : job'.pc = pc at hevent
  cases hevent with
  | failed other error leaves => exact (hstays leaves).elim
  | stopped outcome early leaves =>
    rcases leaves with hleaves | hlimit
    · exact (hstays hleaves).elim
    · exact .inr (.phase (hpc'.trans hlimit))
  | exited last other leaves => exact (hstays leaves).elim
  | turned other bytesSent =>
    refine .inl ?_
    rw [Job.exceeds, hpc']
    refine ⟨before, ?_, hover⟩
    rw [bytesSent, hbefore, Gauge.total, Gauge.total, hsent, hpc, hpc']
    rfl
  | output within =>
    refine .inl ?_
    rw [Job.exceeds, hpc']
    refine ⟨before, ?_, hover⟩
    rw [saturatingAdd_of_le within hcompile, ← Nat.add_assoc, hbefore, Gauge.total, Gauge.total,
      hsent, hpc, hpc']
    rfl

theorem exceeds_run {loop : RuntimeLoop} (hlimited : job.Limited config) (hpc : job.pc = .run loop)
    (hdrains : job.drains printed choice = true) (h : job.exceeds config printed)
    (hs : job.run config loop choice = some job') :
    job'.exceeds config printed ∨ job'.EndsLimited := by
  rw [Job.exceeds, hpc] at h
  have hstays : job.leavesRun loop choice = true → False := fun hleaves => by
    have hall := Job.drains_run hpc hdrains hleaves
    have hcounted := hlimited.terminal.counted loop.bytesSent (by rw [hpc]; rfl)
    have hbounded := hlimited.terminal.bounded
    omega
  obtain ⟨hsent, hevent⟩ := run_event hs
  generalize hpc' : job'.pc = pc at hevent
  cases hevent with
  | failed error leaves => exact (hstays leaves).elim
  | ended outcome leaves =>
    rcases leaves with hleaves | rfl
    · exact (hstays hleaves).elim
    · exact .inr (.phase hpc')
  | turned =>
    refine .inl ?_
    rw [Job.exceeds, hpc']
    exact h
  | output =>
    refine .inl ?_
    rw [Job.exceeds, hpc']
    exact h

def JobAt.isSending : JobAt → Bool
  | .sendCompilerOutput .. | .sendTerminalOutput .. | .sendPhase .. | .sendExit .. => true
  | _ => false

theorem Job.drains_send (hsending : job.pc.isSending = true) (h : job.drains printed choice = true)
    (hs : job.execute config choice = some job') : choice = .send .sent := by
  unfold Job.drains at h
  unfold Job.execute at hs
  cases hpc : job.pc <;> simp only [hpc, JobAt.isSending, Bool.false_eq_true] at hsending
  all_goals
    cases choice with
    | send result =>
      simp only [hpc, decide_eq_true_eq] at h
      rw [h]
    | _ => simp only [hpc, reduceCtorEq] at hs

theorem Job.exceeds.execute (hcompile : config.compileOutputLimit < 2 ^ 64 - 1)
    (hlimited : job.Limited config) (hdrains : job.drains printed choice = true)
    (h : job.exceeds config printed) (hs : job.execute config choice = some job') :
    job'.exceeds config printed ∨ job'.EndsLimited := by
  have hinside := h
  unfold Job.exceeds at hinside
  -- in the loop, or while one of its blocks is being enqueued; for both processes
  split at hinside
  · next hpc =>
    simp only [Job.execute, hpc] at hs
    exact exceeds_compile hcompile hlimited hpc hdrains h hs
  · next loop stream data hpc =>
    obtain ⟨before, hbefore, hover⟩ := hinside
    obtain rfl := Job.drains_send (by rw [hpc]; rfl) hdrains hs
    simp only [Job.execute, hpc] at hs
    cases hs
    refine .inl ⟨before, hbefore.trans ?_, hover⟩
    rw [Gauge.total, Gauge.total, hpc]
    simp [Job.sendPayload, compilerGauge, outputBytes_append, outputBytes_singleton,
      EventPayload.compilerBytes]
  · next hpc =>
    simp only [Job.execute, hpc] at hs
    exact exceeds_run hlimited hpc hdrains h hs
  · next hpc =>
    obtain rfl := Job.drains_send (by rw [hpc]; rfl) hdrains hs
    simp only [Job.execute, hpc] at hs
    cases hs
    exact .inl hinside
  · exact hinside.elim

theorem Job.EndsLimited.execute (hdrains : job.drains printed choice = true)
    (h : job.EndsLimited) (hs : job.execute config choice = some job') : job'.EndsLimited := by
  cases h with
  | phase at_ =>
    obtain rfl := Job.drains_send (by rw [at_]; rfl) hdrains hs
    simp only [Job.execute, at_] at hs
    cases hs
    exact .exit rfl rfl
  | @exit before at_ sent =>
    obtain rfl := Job.drains_send (by rw [at_]; rfl) hdrains hs
    simp only [Job.execute, at_] at hs
    cases hs
    refine @returned _ before rfl ?_
    rw [Job.sendPayload, sent, List.append_assoc]
    rfl
  | returned at_ =>
    simp only [Job.execute, at_] at hs
    cases hs

def Job.Overprints (config : WorkerConfig) (printed : Nat) (job : Job) : Prop :=
  job.exceeds config printed ∨ job.EndsLimited

theorem Job.Overprints.same (h : job.Overprints config printed) (hpc : job'.pc = job.pc)
    (hsent : job'.sent = job.sent) : job'.Overprints config printed := by
  have htotal : ∀ g : Gauge, g.total job' = g.total job := fun g => by
    rw [Gauge.total, Gauge.total, hpc, hsent]
  rcases h with h | h
  · refine .inl ?_
    unfold Job.exceeds at h ⊢
    rwa [hpc, htotal]
  · cases h with
    | phase at_ => exact .inr (.phase (hpc.trans at_))
    | exit at_ sent => exact .inr (.exit (hpc.trans at_) (hsent.trans sent))
    | returned at_ sent => exact .inr (.returned (hpc.trans at_) (hsent.trans sent))

theorem Job.Overprints.execute (hcompile : config.compileOutputLimit < 2 ^ 64 - 1)
    (hlimited : job.Limited config) (hdrains : job.drains printed choice = true)
    (h : job.Overprints config printed) (hs : job.execute config choice = some job') :
    job'.Overprints config printed :=
  h.elim (fun h => h.execute hcompile hlimited hdrains hs) fun h => .inr (h.execute hdrains hs)

theorem Job.not_overprints_absent (j : Uuid) : ¬ (Job.absent j).Overprints config printed := by
  rintro (h | h)
  · exact h
  · cases h with
    | phase at_ => cases at_
    | exit at_ => cases at_
    | returned at_ sent =>
      have hnil : [] = _ ++ limitedEnd := sent
      exact absurd (List.append_eq_nil_iff.1 hnil.symm).2 (List.cons_ne_nil _ _)

end

/-! ### What is on the stream -/

namespace Client

def Tells (k : Client) : Prop :=
  ∀ j, k.emitted.filterMap (WorkerMessage.payloadOf j) = (k.jobs j).sent

section

variable {config : WorkerConfig} {k k' : Client} {a : ClientAction} {i j : Uuid} {job : Job}

theorem Tells.new : Tells .new := fun _ => rfl

theorem Tells.keep (h : Tells k) (hemitted : k'.emitted = k.emitted)
    (hsent : ∀ j, (k'.jobs j).sent = (k.jobs j).sent) : Tells k' := fun j => by
  rw [hemitted, hsent]
  exact h j

theorem Tells.fail (h : Tells k) (e : ClientError) : Tells (k.fail e) := by
  obtain ⟨-, -, -, hemitted, -⟩ := fail_frame (k := k) e
  exact h.keep hemitted fun j => (fail_job e j).2.2.1

theorem filterMap_newEvents (hs : Sound k) {e : Option EventPayload}
    (hsent : job.sent = (k.jobs j).sent ++ e.toList) :
    (k.newEvents j job).filterMap (WorkerMessage.payloadOf i) = if i = j then e.toList else [] := by
  rw [newEvents, hsent, List.drop_left, hs.jobId, List.filterMap_map]
  have hpayload : ∀ payload, WorkerMessage.payloadOf i
      (.event ⟨k.workerId, .canonical j, some payload⟩) = if i = j then some payload else none := by
    intro payload
    simp only [WorkerMessage.payloadOf, JobEvent.payloadOf, JobIdText.parse, Option.some.injEq,
      eq_comm]
  cases e with
  | none => simp
  | some payload =>
    split <;> simp_all

theorem Tells.step (h : Tells k) (hsound : Sound k) (honce : k.AssignsOnce)
    (hs : StepCase config k a k') : Tells k' := by
  cases hs with
  | @received m rest k' select next turn handles =>
    cases handles with
    | @assigned a free =>
      refine h.keep rfl fun j => ?_
      by_cases hj : j = a.jobId
      · -- A job that is assigned now has done nothing yet.
        subst hj
        rw [hsound.absent _ (honce a rest next)]
        have hnew := congrArg Job.sent
          (Function.update_self a.jobId (Job.new (.received a)) k.jobs)
        exact hnew
      · exact congrArg Job.sent (Function.update_of_ne hj _ _)
    | accepted => exact h
    | refused =>
      have htaken : Tells { k with inbound := rest, received := k.received ++ [m] } := h
      exact htaken.fail _
  | @delivered control j =>
    exact h.keep rfl fun i => setJob_sent
      { k.jobs j with controls := (k.jobs j).controls ++ [control] } rfl i
  | undelivered => exact h.fail _
  | @closed j =>
    exact h.keep rfl fun i => setJob_sent
      { k.jobs j with controls := (k.jobs j).controls ++ [JobControl.cancel] } rfl i
  | @ran j choice job running run =>
    obtain ⟨e, -, hsent⟩ := execute_flows run
    intro i
    have hold : (k.setJob j job).emitted.filterMap (WorkerMessage.payloadOf i) = (k.jobs i).sent :=
      h i
    rw [emit, List.filterMap_append, hold, filterMap_newEvents hsound hsent]
    by_cases hij : i = j
    · subst hij
      rw [if_pos rfl, ← hsent]
      exact (congrArg Job.sent (Function.update_self i job k.jobs)).symm
    · rw [if_neg hij, List.append_nil]
      exact (congrArg Job.sent (Function.update_of_ne hij job k.jobs)).symm
  | wrote write => exact h.keep rfl fun i => setJob_sent _ (by rw [write_eq write]) i
  | sentHeartbeat =>
    intro i
    rw [emit, List.filterMap_append]
    exact (List.append_nil _).trans (h i)
  | _ => exact h

/-! ### The jobs of a connection -/

theorem JobStep.limited {chosen : JobChoice → Prop}
    (hcompile : config.compileOutputLimit < 2 ^ 64 - 1)
    (hruntime : config.runtimeOutputLimit < 2 ^ 64 - 1) (h : (k.jobs j).Limited config)
    (hfits : ∀ choice, chosen choice → (k.jobs j).linkFits config choice = true)
    (hs : JobStep config k chosen j job) : job.Limited config := by
  cases hs with
  | same pc sent => exact h.same pc sent
  | assigned => exact .new _
  | ran choice run => exact h.execute hcompile hruntime (hfits _ choice) run

theorem JobStep.overprints {chosen : JobChoice → Prop} {printed : Nat} (hsound : Sound k)
    (honce : k.AssignsOnce) (hcompile : config.compileOutputLimit < 2 ^ 64 - 1)
    (hlimited : (k.jobs j).Limited config) (h : (k.jobs j).Overprints config printed)
    (hdrains : ∀ choice, chosen choice → (k.jobs j).drains printed choice = true)
    (hs : JobStep config k chosen j job) : job.Overprints config printed := by
  cases hs with
  | same pc sent => exact h.same pc sent
  | @assigned a rest next hj =>
    subst hj
    rw [hsound.absent _ (honce a rest next)] at h
    exact absurd h (Job.not_overprints_absent _)
  | ran choice run => exact h.execute hcompile hlimited (hdrains _ choice) run

end

end Client

end Worker

end SmartC
