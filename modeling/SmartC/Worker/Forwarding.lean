import SmartC.Pipes
import SmartC.Worker.Events

/-!
# Forwarded output is what was read

`run_compile_process` and `run_pty_process` forward what their readers put into a
channel: a task for each of the two pipes of a compiler, one thread for the PTY
of the program. A `Call` is one run of either, from the start of its loop. It
holds the receiver of the channel until it returns.
-/

namespace SmartC.Worker

open Pipes (ofReader blocks lasts)
open Transition (Reachable)

/-- What is particular to one of the two functions: its limit, the points in its loop, what an
item of its channel is to the loop, and how its output is seen in the events, at the point where
it waits to be enqueued, and in its counter. -/
structure Call (ι ε : Type) where
  limit : Nat
  inside : JobAt → Bool
  choice : Option (ι × Item Bytes ε) → JobChoice
  output : EventPayload → Option (ι × Bytes)
  block : JobAt → Option (ι × Bytes)
  count : JobAt → Nat

def OutputStream.fromCode : Int → Option OutputStream
  | 1 => some .stdout
  | 2 => some .stderr
  | _ => none

instance : Fintype OutputStream := ⟨{.stdout, .stderr}, fun stream => by cases stream <;> decide⟩

/-- `run_compile_process`. Its readers end with `Closed`. -/
def compileCall (config : WorkerConfig) (link : Bool) : Call OutputStream Unit where
  limit := config.compileOutputLimit
  inside
    | .compile l _ | .sendCompilerOutput l .. => l == link
    | _ => false
  choice
    | some (stream, .block data) => .pipe (some (.data stream data))
    | some (_, .last _) => .pipe (some .closed)
    | none => .pipe none
  output
    | .compilerOutput code data => (OutputStream.fromCode code).map fun stream => (stream, data)
    | _ => none
  block
    | .sendCompilerOutput _ _ stream data => some (stream, data)
    | _ => none
  count
    | .compile _ loop | .sendCompilerOutput _ loop .. => loop.bytesSent
    | _ => 0

/-- `run_pty_process`. Its reader ends with `Closed`, or with `Failed` and an error. -/
def ptyCall (config : WorkerConfig) : Call Unit (Option String) where
  limit := config.runtimeOutputLimit
  inside
    | .run _ | .sendTerminalOutput .. => true
    | _ => false
  choice
    | some (_, .block data) => .read (some (.data data))
    | some (_, .last none) => .read (some .closed)
    | some (_, .last (some error)) => .read (some (.failed error))
    | none => .read none
  output
    | .terminalOutput data => some ((), data)
    | _ => none
  block
    | .sendTerminalOutput _ data => some ((), data)
    | _ => none
  count
    | .run loop | .sendTerminalOutput loop _ => loop.bytesSent
    | _ => 0

structure Calling (ι ε : Type) where
  job : Job
  pipes : Pipes ι Bytes ε

inductive CallAction (ι ε : Type)
  | reader (i : ι) (act : ReaderAct Bytes ε)
  | receive
  | job (action : JobAction)

def JobAction.receives : JobAction → Bool
  | .run choice => choice.receives
  | _ => false

/-- A read gives at least one byte and at most the buffer of 4096. -/
def fitsBuffer {ε : Type} : ReaderAct Bytes ε → Bool
  | .read data => 0 < data.length && data.length ≤ 4096
  | _ => true

section

variable {ι ε : Type}

def Call.next (call : Call ι ε) (pipes : Pipes ι Bytes ε) (job : Job) : Calling ι ε :=
  ⟨job, if call.inside job.pc then pipes else pipes.close⟩

/-- The loop and its readers, until the function returns; the readers may go on after that. -/
def Call.step [DecidableEq ι] [Fintype ι] (config : WorkerConfig) (call : Call ι ε)
    (c : Calling ι ε) :
    CallAction ι ε → Option (Calling ι ε)
  | .reader i act =>
    if fitsBuffer act then (c.pipes.act 64 i act).map fun pipes => { c with pipes := pipes }
    else none
  | .receive =>
    if call.inside c.job.pc then
      c.pipes.receive.bind fun r =>
        (c.job.step config (.run (call.choice r.1))).map (call.next r.2)
    else none
  | .job action =>
    if call.inside c.job.pc && !action.receives then
      (c.job.step config action).map (call.next c.pipes)
    else none

def Call.system [DecidableEq ι] [Fintype ι] (config : WorkerConfig) (call : Call ι ε) (job : Job) :
    Transition.System (Calling ι ε) (CallAction ι ε) :=
  .ofStep ⟨job, .new⟩ (call.step config)

/-- The output that the job has enqueued after the events in `before`. -/
def Call.forwarded (call : Call ι ε) (before : List EventPayload) (job : Job) : List (ι × Bytes) :=
  (job.sent.drop before.length).filterMap call.output

def bytesOf [DecidableEq ι] (i : ι) (l : List (ι × Bytes)) : Bytes := (ofReader i l).flatten

def byteCount (l : List (ι × Bytes)) : Nat := (l.map fun x => x.2.length).sum

/-! ### One step of the loop -/

/-- What a step of the loop does with the output, when it has received `item` or nothing. -/
inductive Forwards (call : Call ι ε) (job : Job) (item : Option (ι × Item Bytes ε)) (job' : Job) :
    Prop
  | turned (other : ∀ i data, item ≠ some (i, .block data))
      (quiet : item = none ∨ call.block job.pc = none) (sent : job'.sent = job.sent)
      (block : call.block job'.pc = call.block job.pc) (count : call.count job'.pc = call.count job.pc)
  | taken {i data} (received : item = some (i, .block data)) (sent : job'.sent = job.sent)
      (before : call.block job.pc = none) (block : call.block job'.pc = some (i, data))
      (count : call.count job'.pc = saturatingAdd (call.count job.pc) data.length)
      (within : call.count job'.pc ≤ call.limit)
  | enqueued {x e} (nothing : item = none)
      (before : call.block job.pc = some x) (output : call.output e = some x)
      (sent : job'.sent = job.sent ++ [e]) (block : call.block job'.pc = none)
      (count : call.count job'.pc = call.count job.pc)
  | returned (quiet : item = none ∨ call.block job.pc = none)
      (outside : call.inside job'.pc = false) (sent : job'.sent = job.sent)

def Call.Tells (call : Call ι ε) (action : JobAction) (item : Option (ι × Item Bytes ε)) : Prop :=
  action.receives = false ∧ item = none ∨ action = .run (call.choice item)

theorem Call.Tells.choice {call : Call ι ε} {choice : JobChoice} {x : ι × Item Bytes ε}
    (h : call.Tells (.run choice) (some x)) : choice = call.choice (some x) := by
  obtain ⟨_, hnone⟩ | hrun := h
  · cases hnone
  · exact JobAction.run.inj hrun

theorem Call.Tells.none {call : Call ι ε} {action : JobAction} {item : Option (ι × Item Bytes ε)}
    (h : call.Tells action item) (hother : action.receives = false)
    (hchoice : ∀ x, (call.choice x).receives = true) : item = none := by
  obtain ⟨_, hnone⟩ | rfl := h
  · exact hnone
  · exact absurd (hchoice item) (ne_true_of_eq_false hother)

def Call.Lawful (config : WorkerConfig) (call : Call ι ε) : Prop :=
  ∀ job job' action item, call.inside job.pc = true → call.Tells action item →
    job.step config action = some job' → Forwards call job item job'

end

section

variable {config : WorkerConfig} {job job' : Job} {action : JobAction} {choice : JobChoice}

theorem step_cases (h : job.step config action = some job') :
    (∃ choice, action = .run choice ∧ job.execute config choice = some job') ∨
      (∀ choice, action ≠ .run choice) ∧ job'.pc = job.pc ∧ job'.sent = job.sent := by
  cases action with
  | run choice => exact .inl ⟨choice, rfl, h⟩
  | deliver control =>
    simp only [Job.step, Job.deliver] at h
    split at h <;> cases h
    exact .inr ⟨by simp, rfl, rfl⟩
  | dropControls =>
    cases h
    exact .inr ⟨by simp, rfl, rfl⟩
  | write error =>
    simp only [Job.step, Job.write] at h
    split at h <;> cases h
    exact .inr ⟨by simp, rfl, rfl⟩

theorem compileCall_outside (config : WorkerConfig) (link : Bool) (outcome : CompileOutcome) :
    (compileCall config link).inside (Job.afterCompile link outcome) = false := by
  unfold Job.afterCompile
  split
  · split <;> rfl
  all_goals rfl

theorem compileCall_compile {link : Bool} {loop : CompileLoop}
    {item : Option (OutputStream × Item Bytes Unit)} (hpc : job.pc = .compile link loop)
    (htells : (compileCall config link).Tells (.run choice) item)
    (h : job.compile config link loop choice = some job') :
    Forwards (compileCall config link) job item job' := by
  obtain ⟨hsent, hevent⟩ := compile_event h
  generalize hpc' : job'.pc = pc' at hevent
  have hreturned : ∀ outcome, pc' = Job.afterCompile link outcome →
      Forwards (compileCall config link) job item job' := by
    rintro outcome rfl
    exact .returned (.inr (by rw [hpc]; rfl)) (hpc' ▸ compileCall_outside config link outcome) hsent
  cases hevent with
  | failed => exact .returned (.inr (by rw [hpc]; rfl)) (by rw [hpc']; rfl) hsent
  | stopped outcome => exact hreturned _ rfl
  | exited => exact hreturned _ rfl
  | turned other bytesSent =>
    -- A turn that keeps the counter and receives no block.
    refine .turned ?_ (.inr (by rw [hpc]; rfl)) hsent (by rw [hpc, hpc']; rfl)
      (by rw [hpc, hpc']; exact bytesSent)
    rintro stream data rfl
    exact other stream data htells.choice
  | @output stream data within =>
    have hitem : item = some (stream, .block data) := by
      obtain ⟨hother, _⟩ | hrun := htells
      · cases hother
      · match item with
        | some (_, .block _) => cases hrun; rfl
        | some (_, .last _) => cases hrun
        | none => cases hrun
    refine .taken hitem hsent (by rw [hpc]; rfl) (by rw [hpc']; rfl) ?_ ?_
    · rw [hpc, hpc']; rfl
    · rw [hpc']; exact within

theorem ptyCall_run {loop : RuntimeLoop} {item : Option (Unit × Item Bytes (Option String))}
    (hpc : job.pc = .run loop) (htells : (ptyCall config).Tells (.run choice) item)
    (h : job.run config loop choice = some job') : Forwards (ptyCall config) job item job' := by
  obtain ⟨hsent, hevent⟩ := run_event h
  generalize hpc' : job'.pc = pc' at hevent
  cases hevent with
  | failed => exact .returned (.inr (by rw [hpc]; rfl)) (by rw [hpc']; rfl) hsent
  | ended outcome => exact .returned (.inr (by rw [hpc]; rfl)) (by rw [hpc']; rfl) hsent
  | turned other bytesSent =>
    refine .turned ?_ (.inr (by rw [hpc]; rfl)) hsent (by rw [hpc, hpc']; rfl)
      (by rw [hpc, hpc']; exact bytesSent)
    rintro i data rfl
    exact other data htells.choice
  | @output data within =>
    have hitem : item = some ((), .block data) := by
      obtain ⟨hother, _⟩ | hrun := htells
      · cases hother
      · match item with
        | some (_, .block _) => cases hrun; rfl
        | some (_, .last none) => cases hrun
        | some (_, .last (some _)) => cases hrun
        | none => cases hrun
    refine .taken hitem hsent (by rw [hpc]; rfl) (by rw [hpc']; rfl) ?_ ?_
    · rw [hpc, hpc']; rfl
    · rw [hpc']; exact within

theorem forwards_idle {ι ε : Type} {call : Call ι ε} {item : Option (ι × Item Bytes ε)}
    (htells : call.Tells action item) (hrun : ∀ choice, action ≠ .run choice)
    (hpc : job'.pc = job.pc) (hsent : job'.sent = job.sent) : Forwards call job item job' := by
  obtain ⟨_, rfl⟩ | hrun' := htells
  · exact .turned nofun (.inl rfl) hsent (by rw [hpc]) (by rw [hpc])
  · exact absurd hrun' (hrun _)

theorem forwards_send {ι ε : Type} {call : Call ι ε} {item : Option (ι × Item Bytes ε)}
    {result : SendResult} {payload : EventPayload} {next : JobAt} {x : ι × Bytes}
    (hnone : item = none) (houtside : ∀ error, call.inside (.sendError error) = false)
    (hbefore : call.block job.pc = some x) (houtput : call.output payload = some x)
    (hblock : call.block next = none) (hcount : call.count next = call.count job.pc) :
    Forwards call job item (job.sendPayload payload next result) := by
  cases result with
  | sent => exact .enqueued hnone hbefore houtput rfl hblock hcount
  | backpressure => exact .returned (.inl hnone) (houtside _) rfl
  | disconnected => exact .returned (.inl hnone) (houtside _) rfl

theorem compileCall_receives {link : Bool} (item : Option (OutputStream × Item Bytes Unit)) :
    ((compileCall config link).choice item).receives = true := by
  match item with
  | some (_, .block _) | some (_, .last _) | none => rfl

theorem ptyCall_receives (item : Option (Unit × Item Bytes (Option String))) :
    ((ptyCall config).choice item).receives = true := by
  match item with
  | some (_, .block _) | some (_, .last none) | some (_, .last (some _)) | none => rfl

theorem compileCall_lawful (config : WorkerConfig) (link : Bool) :
    (compileCall config link).Lawful config := by
  intro job job' action item hinside htells h
  obtain ⟨choice, rfl, hexec⟩ | ⟨hrun, hpc, hsent⟩ := step_cases h
  · cases hpc : job.pc with
    | compile l loop =>
      obtain rfl : l = link := by simpa [hpc, compileCall] using hinside
      simp only [Job.execute, hpc] at hexec
      exact compileCall_compile hpc htells hexec
    | sendCompilerOutput l loop stream data =>
      cases choice with
      | send result =>
        simp only [Job.execute, hpc] at hexec
        cases hexec
        refine forwards_send (x := (stream, data)) (htells.none rfl compileCall_receives)
          (fun _ => rfl) (by rw [hpc]; rfl) ?_ rfl (by rw [hpc]; rfl)
        cases stream <;> rfl
      | _ => simp [Job.execute, hpc] at hexec
    | _ => simp [hpc, compileCall] at hinside
  · exact forwards_idle htells hrun hpc hsent

theorem ptyCall_lawful (config : WorkerConfig) : (ptyCall config).Lawful config := by
  intro job job' action item hinside htells h
  obtain ⟨choice, rfl, hexec⟩ | ⟨hrun, hpc, hsent⟩ := step_cases h
  · cases hpc : job.pc with
    | run loop =>
      simp only [Job.execute, hpc] at hexec
      exact ptyCall_run hpc htells hexec
    | sendTerminalOutput loop data =>
      cases choice with
      | send result =>
        simp only [Job.execute, hpc] at hexec
        cases hexec
        exact forwards_send (x := ((), data)) (htells.none rfl ptyCall_receives) (fun _ => rfl)
          (by rw [hpc]; rfl) rfl rfl (by rw [hpc]; rfl)
      | _ => simp [Job.execute, hpc] at hexec
    | _ => simp [hpc, ptyCall] at hinside
  · exact forwards_idle htells hrun hpc hsent

end

/-! ### A whole call -/

section

variable {ι ε : Type} {call : Call ι ε} {config : WorkerConfig}
  {before : List EventPayload} {c c' : Calling ι ε} {job job' : Job} {pipes pipes' : Pipes ι Bytes ε}
  {item : Option (ι × Item Bytes ε)} {a : CallAction ι ε}

/-- In the loop: what was received is forwarded, but for the block that is being enqueued. -/
structure InLoop (call : Call ι ε) (before : List EventPayload) (job : Job)
    (pipes : Pipes ι Bytes ε) : Prop where
  opened : pipes.closed = false
  blocks : call.forwarded before job ++ (call.block job.pc).toList = blocks pipes.received
  count : saturatingAdd 0 (byteCount (Pipes.blocks pipes.received)) = call.count job.pc
  within : call.count job.pc ≤ call.limit
  recent : ∀ i data, call.block job.pc = some (i, data) →
    ∃ l, pipes.received = l ++ [(i, .block data)]

theorem byteCount_append (l m : List (ι × Bytes)) :
    byteCount (l ++ m) = byteCount l + byteCount m := by
  simp [byteCount]

theorem byteCount_mono {l m : List (ι × Bytes)} (h : l <+: m) : byteCount l ≤ byteCount m := by
  obtain ⟨rest, rfl⟩ := h
  rw [byteCount_append]
  exact Nat.le_add_right _ _

theorem saturatingAdd_mono {a m n : Nat} (h : m ≤ n) : saturatingAdd a m ≤ saturatingAdd a n := by
  simp only [saturatingAdd]
  omega

theorem saturatingAdd_assoc (a m n : Nat) :
    saturatingAdd a (m + n) = saturatingAdd (saturatingAdd a m) n := by
  simp only [saturatingAdd]
  omega

theorem blocks_append (l m : List (ι × Item Bytes ε)) : blocks (l ++ m) = blocks l ++ blocks m :=
  List.filterMap_append

theorem forwarded_append {e : EventPayload} (hbefore : before <+: job.sent)
    (hsent : job'.sent = job.sent ++ [e]) :
    call.forwarded before job' = call.forwarded before job ++ (call.output e).toList := by
  rw [Call.forwarded, Call.forwarded, hsent, List.drop_append_of_le_length hbefore.length_le,
    List.filterMap_append]
  cases h : call.output e <;> simp [h]

theorem forwarded_same (hsent : job'.sent = job.sent) :
    call.forwarded before job' = call.forwarded before job := by
  rw [Call.forwarded, Call.forwarded, hsent]

theorem blocks_other (h : ∀ i data, item ≠ some (i, .block data)) : blocks item.toList = [] := by
  match item with
  | none => rfl
  | some (i, .last e) => rfl
  | some (i, .block data) => exact absurd rfl (h i data)

theorem received_next : (call.next pipes job).pipes.received = pipes.received := by
  rw [Call.next]
  split <;> rfl

variable [DecidableEq ι]

structure Forwarding [DecidableEq ι] (call : Call ι ε) (before : List EventPayload)
    (c : Calling ι ε) : Prop where
  sound : c.pipes.Sound
  sent : before <+: c.job.sent
  part : call.forwarded before c.job <+: blocks c.pipes.received
  limit : saturatingAdd 0 (byteCount (call.forwarded before c.job)) ≤ call.limit
  all : ∀ i e, (i, .last e) ∈ c.pipes.received →
    ofReader i (call.forwarded before c.job) = ofReader i (blocks c.pipes.received)
  loop : call.inside c.job.pc = true → InLoop call before c.job c.pipes

structure Received (pipes : Pipes ι Bytes ε) (item : Option (ι × Item Bytes ε))
    (pipes' : Pipes ι Bytes ε) : Prop where
  sound : pipes'.Sound
  opened : pipes'.closed = false
  received : pipes'.received = pipes.received ++ item.toList

theorem Received.blocks (h : Received pipes item pipes') :
    blocks pipes'.received = Pipes.blocks pipes.received ++ Pipes.blocks item.toList := by
  rw [h.received, blocks_append]

theorem InLoop.all (h : InLoop call before job pipes) (hsound : pipes.Sound) {i : ι} {e : ε}
    (hlast : (i, .last e) ∈ pipes.received) :
    ofReader i (call.forwarded before job) = ofReader i (Pipes.blocks pipes.received) := by
  rw [← h.blocks, Pipes.ofReader_append]
  cases hblock : call.block job.pc with
  | none => simp
  | some x =>
    obtain ⟨j, data⟩ := x
    obtain ⟨l, hreceived⟩ := h.recent j data hblock
    have hij : j ≠ i := by
      rintro rfl
      exact hsound.last_notMem hreceived hlast
    rw [Option.toList_some, Pipes.ofReader_cons, if_neg hij, Pipes.ofReader_nil, List.append_nil]

theorem InLoop.forwarding (h : InLoop call before job pipes) (hsound : pipes.Sound)
    (hsent : before <+: job.sent) : Forwarding call before (call.next pipes job) := by
  have hpart : call.forwarded before job <+: Pipes.blocks pipes.received :=
    h.blocks ▸ List.prefix_append _ _
  have hlimit : saturatingAdd 0 (byteCount (call.forwarded before job)) ≤ call.limit :=
    (saturatingAdd_mono (byteCount_mono hpart)).trans (h.count.trans_le h.within)
  rw [Call.next]
  split
  · exact ⟨hsound, hsent, hpart, hlimit, fun i e => h.all hsound, fun _ => h⟩
  · next houtside =>
    exact ⟨hsound.close, hsent, hpart, hlimit, fun i e => h.all hsound,
      fun hin => absurd hin houtside⟩

/-- When the function returns, the item it has received or the block it could not enqueue is not
one of a reader that has ended. -/
theorem Forwarding.all_returned {i : ι} {e : ε} (h : Forwarding call before ⟨job, pipes⟩)
    (hloop : InLoop call before job pipes) (hpipes : Received pipes item pipes')
    (quiet : item = none ∨ call.block job.pc = none) (hlast : (i, .last e) ∈ pipes'.received) :
    ofReader i (call.forwarded before job) = ofReader i (blocks pipes'.received) := by
  have hreceived := hpipes.received
  obtain rfl | hnone := quiet
  · rw [Option.toList_none, List.append_nil] at hreceived
    rw [hreceived] at hlast ⊢
    exact hloop.all h.sound hlast
  · have hall : call.forwarded before job = Pipes.blocks pipes.received := by
      rw [← hloop.blocks, hnone]
      exact (List.append_nil _).symm
    rw [hall, hpipes.blocks, Pipes.ofReader_append]
    match item with
    | none | some (_, .last _) => exact (List.append_nil _).symm
    | some (j, .block data) =>
      have hij : j ≠ i := by
        rintro rfl
        exact hpipes.sound.last_notMem hreceived hlast
      show _ = _ ++ ofReader i [(j, data)]
      rw [Pipes.ofReader_cons, if_neg hij, Pipes.ofReader_nil, List.append_nil]

theorem Forwarding.next (h : Forwarding call before ⟨job, pipes⟩) (hinside : call.inside job.pc = true)
    (hpipes : Received pipes item pipes') (hf : Forwards call job item job') :
    Forwarding call before (call.next pipes' job') := by
  have hloop := h.loop hinside
  have hbefore : before <+: job.sent := h.sent
  cases hf with
  | turned other quiet sent block count =>
    have hblocks : Pipes.blocks pipes'.received = Pipes.blocks pipes.received := by
      rw [hpipes.blocks, blocks_other other, List.append_nil]
    refine InLoop.forwarding ⟨hpipes.opened, ?_, ?_, ?_, ?_⟩ hpipes.sound (sent ▸ hbefore)
    · rw [forwarded_same sent, block, hblocks]
      exact hloop.blocks
    · rw [hblocks, count]
      exact hloop.count
    · rw [count]
      exact hloop.within
    · intro i data hdata
      rw [block] at hdata
      obtain rfl | hnone := quiet
      · rw [hpipes.received, Option.toList_none, List.append_nil]
        exact hloop.recent i data hdata
      · rw [hnone] at hdata
        cases hdata
  -- a block is received only while none is being enqueued
  | @taken i data received sent hnone block count within =>
    subst received
    have hblocks : Pipes.blocks pipes'.received = Pipes.blocks pipes.received ++ [(i, data)] :=
      hpipes.blocks
    have hall : call.forwarded before job = Pipes.blocks pipes.received := by
      have hloop := hloop.blocks
      rwa [hnone, Option.toList_none, List.append_nil] at hloop
    refine InLoop.forwarding ⟨hpipes.opened, ?_, ?_, within, ?_⟩ hpipes.sound (sent ▸ hbefore)
    · rw [forwarded_same sent, block, hblocks, hall]
      rfl
    · rw [hblocks, byteCount_append, saturatingAdd_assoc, hloop.count, count]
      simp [byteCount]
    · intro i' data' hdata
      rw [block] at hdata
      cases hdata
      exact ⟨pipes.received, hpipes.received⟩
  | @enqueued x e nothing hx output sent block count =>
    have hblocks : Pipes.blocks pipes'.received = Pipes.blocks pipes.received := by
      rw [hpipes.blocks, nothing]
      exact List.append_nil _
    refine InLoop.forwarding ⟨hpipes.opened, ?_, ?_, ?_, ?_⟩ hpipes.sound ?_
    · rw [forwarded_append hbefore sent, output, block, hblocks, ← hloop.blocks, hx]
      exact List.append_nil _
    · rw [hblocks, count]
      exact hloop.count
    · rw [count]
      exact hloop.within
    · intro i data hdata
      rw [block] at hdata
      cases hdata
    · rw [sent]
      exact hbefore.trans (List.prefix_append _ _)
  | returned quiet outside sent =>
    -- what was received and not enqueued is lost
    have hpart : call.forwarded before job' <+: Pipes.blocks pipes'.received := by
      rw [forwarded_same sent, hpipes.blocks]
      exact h.part.trans (List.prefix_append _ _)
    rw [Call.next, if_neg (ne_true_of_eq_false outside)]
    refine ⟨hpipes.sound.close, sent ▸ hbefore, hpart, ?_, fun i e hlast => ?_, fun hin => ?_⟩
    · rw [forwarded_same sent]
      exact h.limit
    · rw [forwarded_same sent]
      have hall := h.all_returned hloop hpipes quiet hlast
      exact hall
    · rw [outside] at hin
      cases hin

variable [Fintype ι]

inductive LoopStep (call : Call ι ε) (c : Calling ι ε) :
    CallAction ι ε → JobAction → Option (ι × Item Bytes ε) → Pipes ι Bytes ε → Prop
  | received {x : Option (ι × Item Bytes ε)} {p : Pipes ι Bytes ε}
      (receive : c.pipes.receive = some (x, p)) :
      LoopStep call c .receive (.run (call.choice x)) x p
  | other {action : JobAction} (other : action.receives = false) :
      LoopStep call c (.job action) action none c.pipes

theorem call_cases (h : call.step config c a = some c') :
    (∃ i act pipes, a = .reader i act ∧ c.pipes.act 64 i act = some pipes ∧
      c' = { c with pipes := pipes }) ∨
    call.inside c.job.pc = true ∧ ∃ action item pipes job, LoopStep call c a action item pipes ∧
      c.job.step config action = some job ∧ c' = call.next pipes job := by
  cases a with
  | reader i act =>
    simp only [Call.step] at h
    split at h
    · obtain ⟨pipes, hact, rfl⟩ := Option.map_eq_some_iff.1 h
      exact .inl ⟨i, act, pipes, rfl, hact, rfl⟩
    · cases h
  | receive =>
    simp only [Call.step] at h
    split at h
    · next hinside =>
      obtain ⟨⟨item, pipes⟩, hreceive, h⟩ := Option.bind_eq_some_iff.1 h
      obtain ⟨job, hstep, rfl⟩ := Option.map_eq_some_iff.1 h
      exact .inr ⟨hinside, _, item, pipes, job, .received hreceive, hstep, rfl⟩
    · cases h
  | job action =>
    simp only [Call.step] at h
    split at h
    · next hcond =>
      obtain ⟨hinside, hother⟩ := Bool.and_eq_true_iff.1 hcond
      obtain ⟨job, hstep, rfl⟩ := Option.map_eq_some_iff.1 h
      exact .inr ⟨hinside, action, none, c.pipes, job, .other (by simpa using hother), hstep, rfl⟩
    · cases h

omit [DecidableEq ι] in
theorem LoopStep.tells {action : JobAction} (h : LoopStep call c a action item pipes) :
    call.Tells action item := by
  cases h with
  | received => exact .inr rfl
  | other other => exact .inl ⟨other, rfl⟩

omit [DecidableEq ι] in
theorem LoopStep.job_of_other {action : JobAction} (h : LoopStep call c a action item pipes)
    (hother : action.receives = false) (hchoice : ∀ x, (call.choice x).receives = true) :
    a = .job action := by
  cases h with
  | received => exact absurd (hchoice _) (ne_true_of_eq_false hother)
  | other => rfl

omit [DecidableEq ι] in
theorem LoopStep.receive_of {action : JobAction} (h : LoopStep call c a action item pipes)
    (hreceives : action.receives = true) : c.pipes.receive = some (item, pipes) := by
  cases h with
  | received receive => exact receive
  | other other => exact absurd hreceives (ne_true_of_eq_false other)

theorem LoopStep.channel {action : JobAction} (h : LoopStep call c a action item pipes')
    (hsound : c.pipes.Sound) (hopen : c.pipes.closed = false) : Received c.pipes item pipes' := by
  cases h with
  | received receive =>
    have hsound' := hsound.receive hopen receive
    obtain ⟨x, rest, _, rfl, rfl⟩ | ⟨_, _, rfl, rfl⟩ := Pipes.receive_cases receive
    · exact ⟨hsound', hopen, rfl⟩
    · exact ⟨hsound', hopen, (List.append_nil _).symm⟩
  | other => exact ⟨hsound, hopen, (List.append_nil _).symm⟩

theorem Forwarding.step (hlawful : call.Lawful config)
    (h : Forwarding call before c) (hs : call.step config c a = some c') :
    Forwarding call before c' := by
  obtain ⟨i, act, pipes, -, hact, rfl⟩ | ⟨hinside, action, item, pipes, job, hturn, hstep, rfl⟩ :=
    call_cases hs
  · obtain ⟨hreceived, hclosed⟩ := Pipes.received_act hact
    refine ⟨h.sound.act hact, h.sent, hreceived ▸ h.part, h.limit, hreceived ▸ h.all,
      fun hin => ?_⟩
    obtain ⟨hopened, hblocks, hcount, hwithin, hrecent⟩ := h.loop hin
    exact ⟨hclosed.trans hopened, hreceived ▸ hblocks, hreceived ▸ hcount, hwithin,
      hreceived ▸ hrecent⟩
  · exact h.next hinside (hturn.channel h.sound (h.loop hinside).opened)
      (hlawful _ _ action item hinside hturn.tells hstep)

theorem Forwarding.last_of_end (h : Forwarding call before c)
    (hinside : call.inside c.job.pc = true) (hqueue : c.pipes.queue = [])
    (hs : call.step config c .receive = some c') (i : ι) :
    ∃ e, (i, .last e) ∈ c'.pipes.received := by
  obtain ⟨_, _, _, ha, _⟩ | ⟨-, action, item, pipes, job, hturn, -, rfl⟩ := call_cases hs
  · cases ha
  cases hturn with
  | received receive =>
    obtain ⟨_, _, hsome, _⟩ | ⟨_, hgone, _, rfl⟩ := Pipes.receive_cases receive
    · rw [hqueue] at hsome
      cases hsome
    · rw [received_next]
      exact h.sound.last_of_drained (h.loop hinside).opened hqueue (hgone i)

structure Starts (call : Call ι ε) (job : Job) : Prop where
  block : call.block job.pc = none
  count : call.count job.pc = 0

theorem forwarding (hlawful : call.Lawful config)
    (hstarts : Starts call job) (h : Reachable (call.system config job) c) :
    Forwarding call job.sent c := by
  refine h.invariant ?_ fun _ hinv _ hs => hinv.step hlawful hs
  have hnone : call.forwarded job.sent job = [] := by simp [Call.forwarded]
  refine ⟨.new, List.prefix_refl _, ?_, ?_, nofun, fun _ => ⟨rfl, ?_, ?_, ?_, ?_⟩⟩
  · exact hnone ▸ List.nil_prefix
  · exact hnone ▸ Nat.zero_le _
  · show call.forwarded job.sent job ++ (call.block job.pc).toList = []
    rw [hnone, hstarts.block]
    rfl
  · exact hstarts.count.symm
  · exact hstarts.count ▸ Nat.zero_le _
  · intro i data hdata
    cases hstarts.block.symm.trans hdata

end

/-! ### Returning after everything was forwarded -/

def JobAt.pipesClosed : JobAt → Nat
  | .compile _ loop | .sendCompilerOutput _ loop .. => loop.pipesClosed
  | _ => 0

def JobAt.isAfterExit : JobAt → Bool
  | .compileStage _ | .sendRunning | .sendPhase .compileFailed .. => true
  | _ => false

section

variable {config : WorkerConfig} {link : Bool} {job job' : Job} {action : JobAction}
  {item : Option (OutputStream × Item Bytes Unit)} {before : List EventPayload}
  {c c' : Calling OutputStream Unit} {a : CallAction OutputStream Unit}

theorem isAfterExit_exited (link : Bool) (code : Option Int) :
    (Job.afterCompile link (.exited code)).isAfterExit = true := by
  unfold Job.afterCompile
  split
  · cases link <;> rfl
  · rfl
  all_goals contradiction

theorem isAfterExit_early {outcome : CompileOutcome} (early : ∀ code, outcome ≠ .exited code) :
    (Job.afterCompile link outcome).isAfterExit = false := by
  cases outcome with
  | exited code => exact absurd rfl (early code)
  | _ => rfl

theorem compileCall_step (hinside : (compileCall config link).inside job.pc = true)
    (h : job.step config action = some job') :
    (∃ loop choice, job.pc = .compile link loop ∧ action = .run choice ∧
      job'.sent = job.sent ∧ CompileEvent config job link loop choice job'.pc) ∨
    action.receives = false ∧
      (job'.pc.pipesClosed = job.pc.pipesClosed ∧ job'.pc.isAfterExit = false ∨
        ∃ error, job'.pc = .sendError error) := by
  obtain ⟨choice, rfl, hexec⟩ | ⟨hrun, hpc, -⟩ := step_cases h
  · cases hpc : job.pc with
    | compile l loop =>
      obtain rfl : l = link := by simpa [hpc, compileCall] using hinside
      simp only [Job.execute, hpc] at hexec
      exact .inl ⟨loop, choice, rfl, rfl, compile_event hexec⟩
    | sendCompilerOutput l loop stream data =>
      cases choice with
      | send result =>
        simp only [Job.execute, hpc] at hexec
        cases hexec
        refine .inr ⟨rfl, ?_⟩
        cases result with
        | sent => exact .inl ⟨rfl, rfl⟩
        | backpressure => exact .inr ⟨_, rfl⟩
        | disconnected => exact .inr ⟨_, rfl⟩
      | _ => simp [Job.execute, hpc] at hexec
    | _ => simp [hpc, compileCall] at hinside
  · refine .inr ⟨?_, .inl ⟨by rw [hpc], ?_⟩⟩
    · cases action with
      | run choice => exact absurd rfl (hrun choice)
      | _ => rfl
    · rw [hpc]
      cases hpc : job.pc with
      | compile | sendCompilerOutput => rfl
      | _ => simp [hpc, compileCall] at hinside

theorem compileCall_item {choice : JobChoice}
    (htells : (compileCall config link).Tells (.run choice) item) :
    (choice = .pipe (some .closed) → ∃ stream e, item = some (stream, .last e)) ∧
      (choice = .pipe none → item = none) ∧
      (∀ stream data, choice = .pipe (some (.data stream data)) → item = some (stream, .block data)) := by
  obtain ⟨hother, rfl⟩ | hrun := htells
  · refine ⟨?_, fun _ => rfl, ?_⟩
    · rintro rfl
      cases hother
    · rintro stream data rfl
      cases hother
  · cases hrun
    match item with
    | some (stream, .block data) => exact ⟨nofun, nofun, fun _ _ heq => by cases heq; rfl⟩
    | some (stream, .last e) => exact ⟨fun _ => ⟨stream, e, rfl⟩, nofun, nofun⟩
    | none => exact ⟨nofun, fun _ => rfl, nofun⟩

theorem closedAfter_lasts {choice : JobChoice} {loop : CompileLoop}
    (htells : (compileCall config link).Tells (.run choice) item)
    (hle : loop.pipesClosed + lasts item.toList ≤ 2) :
    loop.closedAfter choice = loop.pipesClosed + lasts item.toList := by
  obtain ⟨hclosed, hended, hdata⟩ := compileCall_item htells
  match choice with
  | .pipe (some .closed) =>
    obtain ⟨stream, e, rfl⟩ := hclosed rfl
    have hone : lasts (some (stream, Item.last (β := Bytes) e)).toList = 1 := rfl
    rw [hone] at hle ⊢
    show min (loop.pipesClosed + 1) 255 = loop.pipesClosed + 1
    omega
  | .pipe (some (.data stream data)) =>
    obtain rfl := hdata _ _ rfl
    rfl
  | .pipe none =>
    obtain rfl := hended rfl
    rfl
  | .workspace _ | .send _ | .remaining _ | .spawn _ | .deadline | .drained | .control _
  | .exitCode _ | .read _ | .writeFailed .. | .exitStatus _ =>
    obtain ⟨-, rfl⟩ | hrun := htells
    · rfl
    · match item with
      | some (_, .block _) | some (_, .last _) | none => cases hrun

theorem lasts_append (l m : List (OutputStream × Item Bytes Unit)) :
    lasts (l ++ m) = lasts l + lasts m :=
  List.countP_append

def CountsClosed (config : WorkerConfig) (link : Bool) (c : Calling OutputStream Unit) : Prop :=
  (compileCall config link).inside c.job.pc = true → c.job.pc.pipesClosed = lasts c.pipes.received

theorem CountsClosed.step (h : CountsClosed config link c)
    (hf : Forwarding (compileCall config link) before c)
    (hs : (compileCall config link).step config c a = some c') : CountsClosed config link c' := by
  obtain ⟨i, act, pipes, -, hact, rfl⟩ | ⟨hinside, action, item, pipes, job, hturn, hstep, rfl⟩ :=
    call_cases hs
  · intro hin
    rw [(Pipes.received_act hact).1]
    exact h hin
  · intro hin
    have hreceived := hturn.channel hf.sound (hf.loop hinside).opened
    have htells := hturn.tells
    have hcount := h hinside
    -- two readers send at most two last items, so the counter does not saturate
    have hle : lasts pipes.received ≤ 2 := hreceived.sound.lasts_le
    rw [received_next, hreceived.received, lasts_append, ← hcount]
    rw [hreceived.received, lasts_append, ← hcount] at hle
    show job.pc.pipesClosed = _
    obtain ⟨loop, choice, hpc, rfl, -, hevent⟩ | ⟨hother, hsame | ⟨error, herror⟩⟩ :=
      compileCall_step hinside hstep
    · have hloop : c.job.pc.pipesClosed = loop.pipesClosed := by rw [hpc]; rfl
      rw [hloop] at hle ⊢
      rw [← closedAfter_lasts htells hle]
      generalize hpc' : job.pc = pc' at hevent
      cases hevent with
      | turned other bytesSent pipesClosed => exact pipesClosed
      | output within => rfl
      | failed =>
        have houtside : (compileCall config link).inside job.pc = false := by rw [hpc']; rfl
        exact absurd hin (ne_true_of_eq_false houtside)
      | stopped | exited =>
        have houtside : (compileCall config link).inside job.pc = false :=
          hpc' ▸ compileCall_outside config link _
        exact absurd hin (ne_true_of_eq_false houtside)
    · obtain rfl := htells.none hother compileCall_receives
      exact hsame.1
    · have houtside : (compileCall config link).inside job.pc = false := by rw [herror]; rfl
      exact absurd hin (ne_true_of_eq_false houtside)

/-- A return with `Exited` that is not forced by the drain deadline follows the last items of both
readers. -/
theorem exited_after_lasts {code : Option Int} (h : CountsClosed config link c)
    (hf : Forwarding (compileCall config link) before c)
    (hs : (compileCall config link).step config c a = some c')
    (hinside : (compileCall config link).inside c.job.pc = true)
    (hexit : c'.job.pc = Job.afterCompile link (.exited code)) (hdrain : a ≠ .job (.run .drained)) :
    ∀ stream, ∃ e, (stream, .last e) ∈ c'.pipes.received := by
  have hafter : c'.job.pc.isAfterExit = true := hexit ▸ isAfterExit_exited link code
  have houtside : (compileCall config link).inside c'.job.pc = false :=
    hexit ▸ compileCall_outside config link _
  obtain ⟨_, _, _, _, _, rfl⟩ | ⟨-, action, item, pipes, job, hturn, hstep, rfl⟩ := call_cases hs
  · exact absurd hinside (ne_true_of_eq_false houtside)
  have hloop := hf.loop hinside
  have hreceived := hturn.channel hf.sound hloop.opened
  have htells := hturn.tells
  rw [received_next]
  have hafter : job.pc.isAfterExit = true := hafter
  obtain ⟨loop, choice, hpc, rfl, -, hevent⟩ | ⟨-, hsame | ⟨error, herror⟩⟩ :=
    compileCall_step hinside hstep
  · have hcount : loop.pipesClosed = lasts c.pipes.received := by
      have hcount := h hinside
      rwa [hpc] at hcount
    generalize job.pc = pc' at hevent hafter
    cases hevent with
    | failed => cases hafter
    | turned => cases hafter
    | output => cases hafter
    | stopped outcome early =>
      rw [isAfterExit_early early] at hafter
      cases hafter
    | exited last =>
      -- the drain deadline, the end of the channel, or both pipes closed
      rcases last with rfl | rfl | hclosed
      · exact absurd (hturn.job_of_other rfl compileCall_receives) hdrain
      · obtain rfl := (compileCall_item htells).2.1 rfl
        intro stream
        obtain ⟨_, _, _, hsome, _⟩ | ⟨hqueue, hgone, _, rfl⟩ :=
          Pipes.receive_cases (hturn.receive_of rfl)
        · cases hsome
        · exact hf.sound.last_of_drained hloop.opened hqueue (hgone stream)
      · have hlasts : lasts pipes.received = loop.pipesClosed + lasts item.toList := by
          rw [hreceived.received, lasts_append, ← hcount]
        have hle : lasts pipes.received ≤ 2 := hreceived.sound.lasts_le
        rw [closedAfter_lasts htells (hlasts ▸ hle), ← hlasts] at hclosed
        exact hreceived.sound.last_of_lasts hclosed
  · rw [hsame.2] at hafter
    cases hafter
  · rw [herror] at hafter
    cases hafter

end

/-! ### The two functions -/

section

variable {ι ε : Type} [DecidableEq ι] {call : Call ι ε} {before : List EventPayload}
  {c c' : Calling ι ε}

/-- A part of what each reader has read, in its order, that keeps to the limit. The counter of
the bytes saturates, so it says nothing of the limit `usize::MAX`. -/
structure Call.Faithful (call : Call ι ε) (before : List EventPayload) (c : Calling ι ε) :
    Prop where
  part : ∀ i, bytesOf i (call.forwarded before c.job) <+: (c.pipes.reader i).blocks.flatten
  limit : call.limit < 2 ^ 64 - 1 → byteCount (call.forwarded before c.job) ≤ call.limit

def Call.Complete (call : Call ι ε) (before : List EventPayload) (c : Calling ι ε) : Prop :=
  ∀ i, bytesOf i (call.forwarded before c.job) = (c.pipes.reader i).blocks.flatten

theorem flatten_prefix {α : Type} {l m : List (List α)} (h : l <+: m) :
    l.flatten <+: m.flatten := by
  obtain ⟨rest, rfl⟩ := h
  rw [List.flatten_append]
  exact List.prefix_append _ _

theorem Forwarding.faithful (h : Forwarding call before c) : call.Faithful before c where
  part i := flatten_prefix ((Pipes.ofReader_prefix h.part).trans (h.sound.prefix_read i))
  limit hlimit := by
    have hwithin := h.limit
    rw [saturatingAdd] at hwithin
    omega

theorem Forwarding.complete (h : Forwarding call before c)
    (hlast : ∀ i, ∃ e, (i, .last e) ∈ c.pipes.received) : call.Complete before c := by
  intro i
  obtain ⟨e, hlast⟩ := hlast i
  rw [bytesOf, h.all i e hlast, h.sound.all_of_last hlast]

end

variable {config : WorkerConfig} {job : Job}

theorem compile_forwarding {link : Bool} {c : Calling OutputStream Unit}
    (h : Reachable ((compileCall config link).system config
      (job.goto (.compile link ⟨0, 0, none⟩))) c) :
    Forwarding (compileCall config link) job.sent c := by
  have hf := forwarding (compileCall_lawful config link) ⟨rfl, rfl⟩ h
  exact hf

theorem pty_forwarding {c : Calling Unit (Option String)}
    (h : Reachable ((ptyCall config).system config (job.goto (.run ⟨0, none⟩))) c) :
    Forwarding (ptyCall config) job.sent c := by
  have hf := forwarding (ptyCall_lawful config) ⟨rfl, rfl⟩ h
  exact hf

theorem countsClosed {link : Bool} {c : Calling OutputStream Unit}
    (h : Reachable ((compileCall config link).system config
      (job.goto (.compile link ⟨0, 0, none⟩))) c) : CountsClosed config link c :=
  h.invariant (fun _ => rfl) fun hr hcounts _ hs => hcounts.step (compile_forwarding hr) hs

/-- At every moment the output that `run_compile_process` and `run_pty_process` have sent is a
part of what their readers have read, and within the limit. It is all of it when the first
returns `Exited` other than by its drain deadline, and when the second returns after it has seen
the end of its reader or of the channel. -/
theorem forwarded_output_is_faithful (config : WorkerConfig) (job : Job) :
    (∀ link c, Reachable ((compileCall config link).system config
        (job.goto (.compile link ⟨0, 0, none⟩))) c →
      (compileCall config link).Faithful job.sent c ∧
      ∀ a c' code, (compileCall config link).step config c a = some c' →
        (compileCall config link).inside c.job.pc = true →
        c'.job.pc = Job.afterCompile link (.exited code) → a ≠ .job (.run .drained) →
        (compileCall config link).Complete job.sent c') ∧
    (∀ c, Reachable ((ptyCall config).system config (job.goto (.run ⟨0, none⟩))) c →
      (ptyCall config).Faithful job.sent c ∧
      ∀ a c', (ptyCall config).step config c a = some c' →
        (ptyCall config).inside c.job.pc = true → (ptyCall config).inside c'.job.pc = false →
        ((∃ e, ((), .last e) ∈ c'.pipes.received) ∨ a = .receive ∧ c.pipes.queue = []) →
        (ptyCall config).Complete job.sent c') := by
  refine ⟨fun link c h => ?_, fun c h => ?_⟩
  · have hf := compile_forwarding h
    refine ⟨hf.faithful, fun a c' code hs hinside hexit hdrain => ?_⟩
    exact (hf.step (compileCall_lawful config link) hs).complete
      (exited_after_lasts (countsClosed h) hf hs hinside hexit hdrain)
  · have hf := pty_forwarding h
    refine ⟨hf.faithful, fun a c' hs hinside _ hend => ?_⟩
    refine (hf.step (ptyCall_lawful config) hs).complete fun _ => ?_
    obtain hlast | ⟨rfl, hqueue⟩ := hend
    · exact hlast
    · exact hf.last_of_end hinside hqueue hs ()

/-- A compiler that writes to both pipes, and a program that writes before it exits. -/
theorem both_outputs_are_forwarded :
    let config := WorkerConfig.forTest
    let job := Job.new ⟨.canonical 7, 80, 24, []⟩
    (∃ c c', Reachable ((compileCall config false).system config
        (job.goto (.compile false ⟨0, 0, none⟩))) c ∧
      (compileCall config false).step config c .receive = some c' ∧
      c'.job.pc = Job.afterCompile false (.exited (some 0)) ∧
      c'.job.sent = [.compilerOutput 2 [119], .compilerOutput 1 [111, 107]] ∧
      (compileCall config false).Faithful job.sent c ∧
      (compileCall config false).Complete job.sent c') ∧
    (∃ c c', Reachable ((ptyCall config).system config (job.goto (.run ⟨0, none⟩))) c ∧
      (ptyCall config).step config c .receive = some c' ∧
      (ptyCall config).inside c'.job.pc = false ∧ c'.job.sent = [.terminalOutput [104, 105]] ∧
      (ptyCall config).Faithful job.sent c ∧ (ptyCall config).Complete job.sent c') := by
  intro config job
  obtain ⟨hcompile, hpty⟩ := forwarded_output_is_faithful config job
  constructor
  · obtain ⟨c, hr, hp⟩ := Transition.reachable_of_execute
      (f := (compileCall config false).step config)
      (i := ⟨job.goto (.compile false ⟨0, 0, none⟩), .new⟩)
      (p := fun c => ((compileCall config false).step config c .receive).map (fun c' => decide
        ((compileCall config false).inside c.job.pc = true ∧
          c'.job.pc = Job.afterCompile false (.exited (some 0)) ∧
          c'.job.sent = [.compilerOutput 2 [119], .compilerOutput 1 [111, 107]])) == some true)
      [.reader .stderr (.read [119]), .reader .stdout (.read [111, 107]), .reader .stderr .put,
        .receive, .job (.run (.send .sent)), .reader .stdout .put, .reader .stdout (.stop ()),
        .receive, .job (.run (.send .sent)), .reader .stdout .put, .receive,
        .job (.run (.exitCode (.ok (some (some 0))))), .reader .stderr (.stop ()),
        .reader .stderr .put]
      (by decide +kernel)
    obtain ⟨c', hs, hp⟩ := Option.map_eq_some_iff.1 (eq_of_beq hp)
    obtain ⟨hinside, hexit, hsent⟩ := of_decide_eq_true hp
    obtain ⟨hfaithful, hcomplete⟩ := hcompile false c hr
    exact ⟨c, c', hr, hs, hexit, hsent, hfaithful, hcomplete _ c' _ hs hinside hexit nofun⟩
  · obtain ⟨c, hr, hp⟩ := Transition.reachable_of_execute (f := (ptyCall config).step config)
      (i := ⟨job.goto (.run ⟨0, none⟩), .new⟩)
      (p := fun c => ((ptyCall config).step config c .receive).map (fun c' => decide
        ((ptyCall config).inside c.job.pc = true ∧ (ptyCall config).inside c'.job.pc = false ∧
          c'.job.sent = [.terminalOutput [104, 105]] ∧ ((), .last none) ∈ c'.pipes.received))
        == some true)
      [.reader () (.read [104, 105]), .reader () .put, .reader () (.stop none),
        .job (.run (.exitStatus (.ok (some ⟨0, none⟩)))), .receive, .job (.run (.send .sent)),
        .reader () .put]
      (by decide +kernel)
    obtain ⟨c', hs, hp⟩ := Option.map_eq_some_iff.1 (eq_of_beq hp)
    obtain ⟨hinside, houtside, hsent, hlast⟩ := of_decide_eq_true hp
    obtain ⟨hfaithful, hcomplete⟩ := hpty c hr
    exact ⟨c, c', hr, hs, houtside, hsent, hfaithful,
      hcomplete _ c' hs hinside houtside (.inl ⟨none, hlast⟩)⟩

end SmartC.Worker
