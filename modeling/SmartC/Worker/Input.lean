import SmartC.Worker.Slot

/-!
# Input on its way to the program

Input for a job waits in its control channel until the loop of `run_pty_process`
hands it to the writer thread; `run_compile_process` throws it away. `Feeds`
says what a step of the job does to input, `Fed` what the writer has been
handed compared with the input that the worker has received: everything in
order while the program runs, a first part of it when the program is over.
-/

namespace SmartC.Worker

open Function (update)

/-! ### One job -/

def JobControl.data : JobControl → Option Bytes
  | .input data => some data
  | _ => none

def inputs (controls : List JobControl) : List Bytes := controls.filterMap JobControl.data

def JobAt.isOver : JobAt → Bool
  | .sendPhase .. | .sendExit .. | .sendError _ | .sendErrorExit | .returned => true
  | _ => false

def JobAt.isEarly (pc : JobAt) : Bool := !pc.isOver && !pc.isRunning

inductive Feeds (job : Job) : Job → Prop
  | ended {job'} (ended : job'.pc.isOver = true) (blocks : job'.writer.blocks = job.writer.blocks) :
      Feeds job job'
  | same {job'} (live : job.pc.isOver = false)
      (blocks : job'.writer.blocks = job.writer.blocks)
      (inputs : inputs job'.controls = inputs job.controls) : Feeds job job'
  | written {job' data} (live : job.pc.isOver = false)
      (controls : job.controls = .input data :: job'.controls)
      (blocks : job'.writer.blocks = job.writer.blocks ++ [data]) : Feeds job job'
  | discarded {job' data} (early : job.pc.isEarly = true)
      (controls : job.controls = .input data :: job'.controls)
      (blocks : job'.writer.blocks = job.writer.blocks) : Feeds job job'

variable {config : WorkerConfig} {job job' : Job}

theorem prepare_feeds (hpc : job.pc = .prepare) (error : Option String) :
    Feeds job (job.prepare error) := by
  have hlive : job.pc.isOver = false := by rw [hpc]; rfl
  unfold Job.prepare
  repeat' split
  all_goals exact .same hlive rfl rfl

theorem sendPayload_feeds (hlive : job.pc.isOver = false) (payload : EventPayload) (next : JobAt)
    (result : SendResult) : Feeds job (job.sendPayload payload next result) := by
  cases result <;> exact .same hlive rfl rfl

theorem sendPayload_feeds_over (payload : EventPayload) {next : JobAt} (hnext : next.isOver = true)
    (result : SendResult) : Feeds job (job.sendPayload payload next result) := by
  cases result with
  | sent => exact .ended hnext rfl
  | backpressure => exact .ended rfl rfl
  | disconnected => exact .ended rfl rfl

theorem compileControl_feeds {link : Bool} {loop : CompileLoop} (hpc : job.pc = .compile link loop)
    (h : job.compileControl link loop = some job') : Feeds job job' := by
  have hlive : job.pc.isOver = false := by rw [hpc]; rfl
  unfold Job.compileControl at h
  split at h
  · split at h <;> cases h
    exact .same hlive rfl rfl
  · next control rest hcontrols =>
    have hskip : control.data = none → inputs rest = inputs job.controls := fun hdata => by
      rw [hcontrols, inputs, inputs, List.filterMap_cons_none hdata]
    cases control with
    | input data => cases h; exact .discarded (by rw [hpc]; rfl) hcontrols rfl
    | resize cols rows => cases h; exact .same hlive rfl (hskip rfl)
    | resourceLimit => cases h; exact .same hlive rfl (hskip rfl)
    | cancel => cases h; exact .same hlive rfl (hskip rfl)

theorem compile_feeds {link : Bool} {loop : CompileLoop} {choice : JobChoice}
    (hpc : job.pc = .compile link loop) (h : job.compile config link loop choice = some job') :
    Feeds job job' := by
  have hlive : job.pc.isOver = false := by rw [hpc]; rfl
  simp only [Job.compile] at h
  split at h
  case h_3 =>
    split at h
    · exact compileControl_feeds hpc h
    · cases h
  all_goals repeat' split at h
  all_goals cases h
  all_goals exact .same hlive rfl rfl

theorem input_feeds {loop : RuntimeLoop} {data : Bytes} {rest : List JobControl}
    (hpc : job.pc = .run loop) (hcontrols : job.controls = .input data :: rest) :
    Feeds job (Job.input { job with controls := rest } loop data) := by
  unfold Job.input
  split
  · exact .ended rfl rfl
  split
  · exact .ended rfl rfl
  · exact .written (by rw [hpc]; rfl) hcontrols rfl

theorem runControl_feeds {loop : RuntimeLoop} {resizeError : Option String}
    (hpc : job.pc = .run loop) (h : job.runControl loop resizeError = some job') :
    Feeds job job' := by
  have hlive : job.pc.isOver = false := by rw [hpc]; rfl
  unfold Job.runControl at h
  split at h
  · split at h <;> cases h
    exact .ended rfl rfl
  · next control rest hcontrols =>
    have hskip : control.data = none → inputs rest = inputs job.controls := fun hdata => by
      rw [hcontrols, inputs, inputs, List.filterMap_cons_none hdata]
    cases control with
    | input data => cases h; exact input_feeds hpc hcontrols
    | resize cols rows =>
      cases resizeError with
      | none => cases h; exact .same hlive rfl (hskip rfl)
      | some detail => cases h; exact .ended rfl rfl
    | resourceLimit => cases h; exact .ended rfl rfl
    | cancel => cases h; exact .ended rfl rfl

theorem run_feeds {loop : RuntimeLoop} {choice : JobChoice} (hpc : job.pc = .run loop)
    (h : job.run config loop choice = some job') : Feeds job job' := by
  have hlive : job.pc.isOver = false := by rw [hpc]; rfl
  simp only [Job.run] at h
  split at h
  case h_2 =>
    obtain ⟨exit, -, rfl⟩ := Option.map_eq_some_iff.1 h
    exact .same hlive rfl rfl
  case h_3 =>
    split at h
    · exact runControl_feeds hpc h
    · cases h
  all_goals repeat' split at h
  all_goals cases h
  all_goals exact .same hlive rfl rfl

theorem execute_feeds {choice : JobChoice} (h : job.execute config choice = some job') :
    Feeds job job' := by
  unfold Job.execute at h
  split at h
  · next hpc => cases h; exact prepare_feeds hpc _
  · next hpc => cases h; exact sendPayload_feeds (by rw [hpc]; rfl) _ _ _
  · next hpc => cases h; exact .same (by rw [hpc]; rfl) rfl rfl
  · next hpc => split at h <;> cases h <;> exact .same (by rw [hpc]; rfl) rfl rfl
  · next hpc => exact compile_feeds hpc h
  · next hpc => cases h; exact sendPayload_feeds (by rw [hpc]; rfl) _ _ _
  · next hpc => cases h; exact sendPayload_feeds (by rw [hpc]; rfl) _ _ _
  · next hpc => split at h <;> cases h <;> exact .same (by rw [hpc]; rfl) rfl rfl
  · next hpc => exact run_feeds hpc h
  · next hpc => cases h; exact sendPayload_feeds (by rw [hpc]; rfl) _ _ _
  · cases h; exact sendPayload_feeds_over _ rfl _
  · cases h; exact sendPayload_feeds_over _ rfl _
  · cases h; exact .ended rfl rfl
  · cases h; exact .ended rfl rfl
  · cases h

theorem JobAt.isEarly_of_isCompiling {pc : JobAt} (h : pc.isCompiling = true) :
    pc.isEarly = true := by
  cases pc <;> first | rfl | cases h

theorem JobAt.not_isEarly_of_isRunning {pc : JobAt} (h : pc.isRunning = true) :
    pc.isEarly = false := by
  rw [JobAt.isEarly, h, Bool.not_true, Bool.and_false]

theorem Flow.early {pc pc' : JobAt} {e : Option EventPayload} (h : Flow pc e pc')
    (hpc' : pc'.isEarly = true) :
    pc.isEarly = true ∧ e ≠ some (.phase JobPhase.running.code) := by
  cases h with
  | stay => exact ⟨hpc', nofun⟩
  | prepare => exact ⟨rfl, nofun⟩
  | compiling => exact ⟨rfl, by decide⟩
  | compile source => exact ⟨JobAt.isEarly_of_isCompiling source, nofun⟩
  | compilerOutput => exact ⟨rfl, nofun⟩
  | run source target =>
    rw [JobAt.not_isEarly_of_isRunning target] at hpc'
    cases hpc'
  | _ => cases hpc'

/-! ### The input that the worker has received -/

def stdinFor (j : Uuid) : ApiMessage → Option Bytes
  | .command ⟨i, some (.stdin data)⟩ => if i = j then some data else none
  | _ => none

def stdinOf (j : Uuid) (messages : List ApiMessage) : List Bytes := messages.filterMap (stdinFor j)

theorem stdinOf_append (j : Uuid) (messages : List ApiMessage) (m : ApiMessage) :
    stdinOf j (messages ++ [m]) = stdinOf j messages ++ (stdinFor j m).toList := by
  cases hm : stdinFor j m <;> simp [stdinOf, hm]

theorem stdinFor_of_ne {j : Uuid} {command : JobCommand} (h : command.jobId ≠ j) :
    stdinFor j (.command command) = none := by
  obtain ⟨i, action⟩ := command
  rcases action with _ | _ | _ | _ <;> first | rfl | exact if_neg h

theorem stdinFor_eq_some {i j : Uuid} {action : CommandAction} {data : Bytes}
    (h : stdinFor j (.command ⟨i, some action⟩) = some data) : i = j ∧ action = .stdin data := by
  cases action with
  | stdin =>
    obtain ⟨hi, hdata⟩ := Option.ite_none_right_eq_some.1 h
    cases hdata
    exact ⟨hi, rfl⟩
  | _ => cases h

theorem commandControl_data {command : JobCommand} {control : JobControl}
    (h : commandControl command.action = .ok control) :
    stdinFor command.jobId (.command command) = control.data := by
  obtain ⟨i, action⟩ := command
  rcases action with _ | data | ⟨cols, rows⟩ | reason
  all_goals simp only [commandControl] at h
  all_goals repeat' split at h
  all_goals cases h
  all_goals first | rfl | exact if_pos rfl

namespace Client

def delivering (k : Client) (j : Uuid) : List Bytes :=
  match k.loop with
  | .deliver control => if k.active = some j then control.data.toList else []
  | _ => []

/-- The input for job `j` that the writer has not been handed. -/
def waiting (k : Client) (j : Uuid) : List Bytes := inputs (k.jobs j).controls ++ k.delivering j

/-- `lost` is input that came with the message that ended the loop. -/
structure Fed (k : Client) (j : Uuid) : Prop where
  handed : (k.jobs j).writer.blocks <+: stdinOf j k.received
  fed : (k.jobs j).pc.isOver = false → ∃ lost,
    stdinOf j k.received = (k.jobs j).writer.blocks ++ k.waiting j ++ lost ∧
      (k.ended = false → lost = [])

variable {k k' : Client} {a : ClientAction} {i j : Uuid} {m : ApiMessage}

theorem delivering_of_loop (h : ∀ control, k.loop ≠ .deliver control) : k.delivering j = [] := by
  unfold delivering
  split
  · next control hloop => exact absurd hloop (h control)
  · rfl

theorem delivering_of_ne (h : k.active ≠ some j) : k.delivering j = [] := by
  unfold delivering
  split
  · exact if_neg h
  · rfl

theorem delivering_of_active {control : JobControl} (hloop : k.loop = .deliver control)
    (h : k.active = some j) : k.delivering j = control.data.toList := by
  simp only [delivering, hloop, h, if_true]

theorem delivering_of_select (h : k.loop = .select) : k.delivering j = [] :=
  delivering_of_loop fun _ hloop => nomatch h.symm.trans hloop

theorem waiting_of_controls (hloop : k'.loop = k.loop) (hactive : k'.active = k.active)
    (h : (k'.jobs j).controls = (k.jobs j).controls) : k'.waiting j = k.waiting j := by
  rw [waiting, waiting, delivering, delivering, hloop, hactive, h]

theorem Fed.keep (h : Fed k j) (hreceived : stdinOf j k'.received = stdinOf j k.received)
    (hblocks : (k'.jobs j).writer.blocks = (k.jobs j).writer.blocks)
    (hlive : (k'.jobs j).pc.isOver = false → (k.jobs j).pc.isOver = false ∧
      k'.waiting j = k.waiting j) (hended : k'.ended = false → k.ended = false) : Fed k' j where
  handed := by
    rw [hblocks, hreceived]
    exact h.handed
  fed hpc := by
    obtain ⟨hpc, hwaiting⟩ := hlive hpc
    rw [hblocks, hreceived, hwaiting]
    obtain ⟨lost, heq, hlost⟩ := h.fed hpc
    exact ⟨lost, heq, fun he => hlost (hended he)⟩

theorem Fed.refuse (h : Fed k j) (hselect : k.loop = .select) (rest : List ApiMessage)
    (e : ClientError) :
    Fed (Client.fail { k with inbound := rest, received := k.received ++ [m] } e) j := by
  generalize hk : ({ k with inbound := rest, received := k.received ++ [m] } : Client) = taken
  have hjob : taken.jobs j = k.jobs j := by rw [← hk]
  obtain ⟨hpc, hcontrols, -, hwriter⟩ := fail_job (k := taken) e j
  have hreceived : stdinOf j (taken.fail e).received =
      stdinOf j k.received ++ (stdinFor j m).toList := by
    rw [(fail_frame e).1, ← hk, stdinOf_append]
  have hwaiting : (taken.fail e).waiting j = k.waiting j := by
    rw [waiting, waiting, hcontrols, hjob, delivering_of_select hselect,
      delivering_of_loop (by rw [fail_loop]; nofun)]
  constructor
  · rw [hreceived, hwriter, hjob]
    exact h.handed.trans (List.prefix_append _ _)
  · intro hlive
    rw [hpc, hjob] at hlive
    obtain ⟨lost, heq, -⟩ := h.fed hlive
    refine ⟨lost ++ (stdinFor j m).toList, ?_, fun hended => ?_⟩
    · rw [hreceived, hwriter, hjob, hwaiting, heq, List.append_assoc]
    · rw [ended, fail_loop] at hended
      cases hended

theorem Fed.accept {command : JobCommand} {control : JobControl} (h : Fed k j)
    (hselect : k.loop = .select) (hactive : k.active = some command.jobId)
    (hvalid : commandControl command.action = .ok control) (rest : List ApiMessage) :
    Fed { k with
      inbound := rest, received := k.received ++ [.command command], loop := .deliver control } j := by
  have hdelivering := delivering_of_select (j := j) hselect
  by_cases hj : command.jobId = j
  · subst hj
    have hnew : Client.delivering { k with
        inbound := rest, received := k.received ++ [.command command], loop := .deliver control }
          command.jobId = control.data.toList := delivering_of_active rfl hactive
    constructor
    · rw [stdinOf_append]
      exact h.handed.trans (List.prefix_append _ _)
    · intro hlive
      obtain ⟨lost, heq, hlost⟩ := h.fed hlive
      rw [hlost (ended_of_select hselect), List.append_nil, waiting, hdelivering,
        List.append_nil] at heq
      refine ⟨[], ?_, fun _ => rfl⟩
      rw [stdinOf_append, heq, commandControl_data hvalid, waiting, hnew, List.append_nil,
        List.append_assoc]
  · have hnone := stdinFor_of_ne hj
    refine h.keep ?_ rfl (fun hlive => ⟨hlive, ?_⟩) fun _ => ended_of_select hselect
    · rw [stdinOf_append, hnone, Option.toList_none, List.append_nil]
    · rw [waiting, waiting, hdelivering, delivering_of_ne]
      exact fun hother => hj (Option.some.inj (hactive.symm.trans hother))

theorem Fed.assign {assignment : JobAssignment} (h : Fed k j) (hselect : k.loop = .select)
    (hfresh : stdinOf assignment.jobId k.received = []) (rest : List ApiMessage) :
    Fed { Client.setJob { k with
        inbound := rest, received := k.received ++ [.assignment assignment] }
          assignment.jobId (.new (.received assignment)) with
      currentJob := some assignment.jobId, active := some assignment.jobId,
      running := some assignment.jobId } j := by
  by_cases hj : j = assignment.jobId
  · subst hj
    constructor
    · simp [setJob, Job.new]
    · intro _
      refine ⟨[], ?_, fun _ => rfl⟩
      simp only [setJob, stdinOf_append, hfresh, waiting, delivering, hselect,
        Function.update_self, Job.new]
      rfl
  · refine h.keep ?_ ?_ (fun hlive => ?_) fun _ => ended_of_select hselect
    · simp only [setJob, stdinOf_append]
      exact List.append_nil _
    · simp only [setJob, Function.update_of_ne hj]
    · simp only [setJob, Function.update_of_ne hj] at hlive
      refine ⟨hlive, ?_⟩
      simp only [setJob, waiting, delivering, hselect, Function.update_of_ne hj]

theorem Fed.setOther {job : Job} (h : Fed k j) (hij : j ≠ i) : Fed (k.setJob i job) j := by
  refine h.keep rfl ?_ (fun hlive => ?_) id
  · simp only [setJob, Function.update_of_ne hij]
  · simp only [setJob, Function.update_of_ne hij] at hlive
    exact ⟨hlive, waiting_of_controls rfl rfl (by simp only [setJob, Function.update_of_ne hij])⟩

/-- A step of the job's task. Input is thrown away only before the program runs, when none has
been received. -/
theorem Fed.run {job : Job} (h : Fed k j)
    (hquiet : (k.jobs j).pc.isEarly = true → stdinOf j k.received = [])
    (hfeeds : Feeds (k.jobs j) job) : Fed (k.setJob j job) j := by
  have hjob : (k.setJob j job).jobs j = job := Function.update_self ..
  have hdelivering : (k.setJob j job).delivering j = k.delivering j := rfl
  cases hfeeds with
  | ended ended blocks =>
    constructor
    · rw [hjob, blocks]
      exact h.handed
    · rw [hjob, ended]
      nofun
  | same live blocks inputs =>
    refine h.keep rfl (by rw [hjob, blocks]) (fun _ => ⟨live, ?_⟩) id
    rw [waiting, hjob, inputs, hdelivering, waiting]
  | @written data live controls blocks =>
    obtain ⟨lost, heq, hlost⟩ := h.fed live
    have hinputs : inputs (k.jobs j).controls = data :: inputs job.controls := by
      rw [controls]
      rfl
    have heq' : stdinOf j k.received =
        job.writer.blocks ++ (k.setJob j job).waiting j ++ lost := by
      rw [heq, blocks, waiting, hinputs, waiting, hjob, hdelivering]
      simp
    constructor
    · rw [hjob]
      exact ⟨_, by rw [← List.append_assoc]; exact heq'.symm⟩
    · rw [hjob]
      exact fun _ => ⟨lost, heq', hlost⟩
  | @discarded data early controls blocks =>
    -- the compile stage would drop the input, but none comes so early
    have hlive : (k.jobs j).pc.isOver = false := by
      rw [JobAt.isEarly, Bool.and_eq_true, Bool.not_eq_true'] at early
      exact early.1
    obtain ⟨lost, heq, -⟩ := h.fed hlive
    rw [hquiet early, waiting, controls] at heq
    simp [inputs, JobControl.data] at heq

theorem Fed.step (h : Fed k j)
    (hquiet : (k.jobs j).pc.isEarly = true → stdinOf j k.received = [])
    (hfresh : ∀ assignment rest, k.inbound = .assignment assignment :: rest →
      stdinOf assignment.jobId k.received = [])
    (hs : StepCase config k a k') : Fed k' j := by
  cases hs with
  | @received m rest k' select next turn handles =>
    cases handles with
    | @assigned assignment free => exact h.assign select (hfresh assignment rest next) rest
    | accepted active job valid =>
      subst job
      exact h.accept select active valid rest
    | refused => exact h.refuse select rest _
  | @delivered control i loop active live room =>
    by_cases hij : j = i
    · subst hij
      refine h.keep rfl ?_ (fun hlive => ?_) fun _ => ended_of_deliver loop
      · simp only [setJob, Function.update_self]
      · simp only [setJob, Function.update_self] at hlive
        refine ⟨hlive, ?_⟩
        rw [waiting, waiting, delivering_of_active loop active]
        simp only [setJob, delivering, Function.update_self, inputs, List.filterMap_append,
          List.append_nil]
        cases hdata : control.data <;> simp [hdata]
    · have hother : k.active ≠ some j := fun hactive =>
        hij (Option.some.inj (hactive.symm.trans active))
      refine (h.setOther hij).keep rfl rfl (fun hlive => ⟨hlive, ?_⟩) fun _ => ended_of_deliver loop
      exact congrArg (_ ++ ·) (delivering_of_ne hother).symm
  | @undelivered control i loop active returned =>
    -- the job has returned, so it is not one that is still fed
    obtain ⟨hpc, hcontrols, -, hwriter⟩ := fail_job (k := k) .jobControlClosed j
    refine h.keep (by rw [(fail_frame _).1]) (by rw [hwriter]) (fun hlive => ?_)
      fun hend => by cases hend
    rw [hpc] at hlive
    have hother : k.active ≠ some j := fun hactive => by
      rw [Option.some.inj (hactive.symm.trans active), returned] at hlive
      cases hlive
    refine ⟨hlive, ?_⟩
    rw [waiting, waiting, hcontrols, delivering_of_ne hother,
      delivering_of_loop (by simp [fail_loop])]
  | completed select =>
    refine h.keep rfl rfl (fun hlive => ⟨hlive, ?_⟩) id
    simp only [waiting, delivering, select]
  | completedOther select =>
    refine h.keep rfl rfl (fun hlive => ⟨hlive, ?_⟩) id
    simp only [waiting, delivering, select]
  | closedIdle select =>
    refine h.keep rfl rfl (fun hlive => ⟨hlive, ?_⟩) (fun hend => by cases hend)
    simp only [waiting, delivering, select]
  | @closed i select active =>
    by_cases hij : j = i
    · subst hij
      refine h.keep rfl ?_ (fun hlive => ?_) (fun hend => by cases hend)
      · simp only [setJob, Function.update_self]
      · simp only [setJob, Function.update_self] at hlive
        refine ⟨hlive, ?_⟩
        simp only [setJob, waiting, delivering, select, Function.update_self, inputs,
          List.filterMap_append]
        exact congrArg (· ++ []) (List.append_nil _)
    · refine (h.setOther hij).keep rfl rfl (fun hlive => ⟨hlive, ?_⟩) (fun hend => by cases hend)
      simp only [setJob, waiting, delivering, select]
  | @ran i choice job running run =>
    by_cases hij : j = i
    · subst hij
      exact (h.run hquiet (execute_feeds run)).keep rfl rfl (fun hlive => ⟨hlive, rfl⟩) id
    · exact (h.setOther hij).keep rfl rfl (fun hlive => ⟨hlive, rfl⟩) id
  | @wrote i error job write =>
    rw [write_eq write]
    by_cases hij : j = i
    · subst hij
      refine h.keep rfl ?_ (fun hlive => ?_) id
      · simp only [setJob, Function.update_self]
      · simp only [setJob, Function.update_self] at hlive
        exact ⟨hlive, waiting_of_controls rfl rfl (by simp only [setJob, Function.update_self])⟩
    · exact h.setOther hij
  | finished => exact h.keep rfl rfl (fun hlive => ⟨hlive, rfl⟩) id
  | readCurrentJob => exact h.keep rfl rfl (fun hlive => ⟨hlive, rfl⟩) id
  | sentHeartbeat => exact h.keep rfl rfl (fun hlive => ⟨hlive, rfl⟩) id

theorem Fed.new : Fed .new j := ⟨List.prefix_refl _, nofun⟩

end Client

end SmartC.Worker
