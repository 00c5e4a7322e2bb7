import SmartC.Executor.Branches

/-!
# Call stacks and session handles

What a reader of the source takes for granted about a running task: a frame
lies only over the function it has called, only the dispatcher dispatches, and
every `Arc<Session>` that a task holds is the handle of a session that was
created.
-/

namespace SmartC.Executor

/-! ### The call graph -/

/-- The operations, up to the tail calls between them. -/
inductive Group
  | create | consume | activate | command | register | report | complete | unregister
  | dispatch | maintenance | websocket | stream
  deriving DecidableEq, Repr

def Pc.group : Pc → Option Group
  | .vacant | .done _ => none
  | .createExecution _ | .createExecutionInsert .. | .createExecutionCount _ => some .create
  | .consumeTicket .. | .consumeTicketInner _ | .consumeTicketQueue _
  | .consumeTicketLimits _ => some .consume
  | .activateSession _ | .activateSessionQueue _ | .activateSessionLimits _
  | .activateSessionSend .. | .activateSessionNotify _ => some .activate
  | .sendStdin .. | .resize .. | .stop .. | .stopQueue .. | .sendCommand ..
  | .sendCommandWorker .. | .sendCommandSend .. => some .command
  | .registerWorker .. | .registerWorkerNotify _ => some .register
  | .heartbeat .. | .handleWorkerEvent .. | .handleWorkerEventSession .. | .applyPhase ..
  | .applyPhaseSend .. | .applyCompilerOutput .. | .applyCompilerOutputCount ..
  | .applyCompilerOutputSend .. | .applyTerminalOutput .. | .applyTerminalOutputCount ..
  | .applyTerminalOutputSend .. | .applyError .. => some .report
  | .completeSession .. => some .complete
  | .unregisterWorker .. | .unregisterWorkerCount .. | .unregisterWorkerSession ..
  | .unregisterWorkerSend .. | .unregisterWorkerNotify => some .unregister
  | .dispatchPop | .dispatchSession _ | .dispatchInner _ | .dispatchWorkers _
  | .dispatchPushFront .. | .dispatchAwait | .dispatchParked => some .dispatch
  | .maintenanceOnce | .maintenanceWorkers _ | .maintenanceNow
  | .maintenanceSessions .. => some .maintenance
  | .executionWebsocket .. | .websocketSession _ | .websocketHello _ | .websocketSnapshot _
  | .websocketSendSnapshot .. | .websocketRefused _ | .websocketSelect _
  | .websocketSendError .. | .websocketClose .. => some .websocket
  | .processWorkerStream .. => some .stream

def Frame.caller : Frame → Group
  | .stopped | .sendCommandClosed => .command
  | .exitApplied | .outputLimited _ => .report
  | .unregisterWorkerNotify => .unregister
  | .dispatchLoop => .dispatch
  | .maintenanceWorkers _ | .maintenanceSessions .. => .maintenance
  | .workRegistered _ | .processWorkerStream .. => .stream
  | .executionWebsocket _ | .websocketActivated _ | .websocketHandled _
  | .websocketRateLimited _ | .websocketBreak _ | .websocketReturn .. => .websocket

def Frame.callee : Frame → Group
  | .stopped | .exitApplied | .unregisterWorkerNotify => .complete
  | .sendCommandClosed | .dispatchLoop | .maintenanceWorkers _ => .unregister
  | .outputLimited _ | .maintenanceSessions .. | .websocketHandled _ | .websocketRateLimited _
  | .websocketBreak _ | .websocketReturn .. => .command
  | .workRegistered _ => .register
  | .processWorkerStream .. => .report
  | .executionWebsocket _ => .consume
  | .websocketActivated _ => .activate

/-- The operation at the bottom of a stack with `g` on top, when every frame
waits for the one above it. -/
def Frame.base (g : Group) : List Frame → Option Group
  | [] => some g
  | f :: frames => if f.callee = g then Frame.base f.caller frames else none

def Task.WellTyped (t : Tid) (task : Task) : Prop :=
  ∃ g b, (task.pc.group = none ∨ task.pc.group = some g) ∧ Frame.base g task.frames = some b ∧
    (b = .dispatch ↔ t = .dispatcher)

/-! ### Session handles -/

def Pc.arcs : Pc → List Uuid
  | .createExecutionCount j | .consumeTicket j _ | .consumeTicketInner j | .consumeTicketQueue j
  | .consumeTicketLimits j | .activateSession j | .activateSessionQueue j
  | .activateSessionLimits j | .activateSessionSend j _ | .sendStdin j _ | .resize j _ _
  | .stop _ j | .stopQueue _ j | .sendCommand j _ | .sendCommandWorker j _ _
  | .sendCommandSend j _ _ _ | .applyPhase j _ | .applyPhaseSend j _ | .applyCompilerOutput j _ _
  | .applyCompilerOutputCount j _ _ | .applyCompilerOutputSend j _ _ | .applyTerminalOutput j _
  | .applyTerminalOutputCount j _ | .applyTerminalOutputSend j _ | .applyError j _ _ _
  | .completeSession j _ _ | .unregisterWorkerSend j _ | .dispatchInner j | .dispatchWorkers j
  | .websocketSession j | .websocketRefused j | .websocketClose j _ => [j]
  | .websocketHello s | .websocketSnapshot s | .websocketSendSnapshot s _ | .websocketSelect s
  | .websocketSendError s _ => [s.session]
  | .maintenanceSessions _ js => js
  | .vacant | .done _ | .createExecution _ | .createExecutionInsert .. | .activateSessionNotify _
  | .registerWorker .. | .registerWorkerNotify _ | .heartbeat .. | .handleWorkerEvent ..
  | .handleWorkerEventSession .. | .unregisterWorker .. | .unregisterWorkerCount ..
  | .unregisterWorkerSession .. | .unregisterWorkerNotify | .dispatchPop | .dispatchSession _
  | .dispatchPushFront .. | .dispatchAwait | .dispatchParked | .maintenanceOnce
  | .maintenanceWorkers _ | .maintenanceNow | .executionWebsocket .. | .processWorkerStream .. => []

def Frame.arcs : Frame → List Uuid
  | .maintenanceSessions _ js => js
  | .executionWebsocket j | .websocketRateLimited j | .websocketBreak j
  | .websocketReturn j _ => [j]
  | .websocketActivated s | .websocketHandled s => [s.session]
  | .stopped | .exitApplied | .outputLimited _ | .sendCommandClosed | .unregisterWorkerNotify
  | .dispatchLoop | .maintenanceWorkers _ | .workRegistered _ | .processWorkerStream .. => []

def Task.arcs (task : Task) : List Uuid := task.pc.arcs ++ task.frames.flatMap Frame.arcs

/-! ### One step -/

/-- What one step of an operation does to the call stack and to the handles. -/
structure Continues (sh : Shared) (pc : Pc) (o : Outcome) : Prop where
  stack : match o.frame with
    | none => o.pc.group = none ∨ o.pc.group = pc.group ∨ pc.group = some .stream
        ∧ o.pc.group = some .unregister
    | some f => pc.group = some f.caller ∧ o.pc.group = some f.callee
  arcs : ∀ j ∈ Task.arcs ⟨o.pc, o.frame.toList⟩,
    j ∈ pc.arcs ∨ j ∈ sh.sessions ∨ j ∈ o.shared.created
  created : sh.created ⊆ o.shared.created
  sessions : ∀ j ∈ o.shared.sessions, j ∈ sh.sessions ∨ j ∈ o.shared.created

theorem exec_continues (h : exec env t choice sh pc = some o) : Continues sh pc o := by
  cases exec_branch h
  all_goals
    refine ⟨?_, ?_, ?_, ?_⟩
    · first
      | exact .inl rfl
      | exact .inr (.inl rfl)
      | exact ⟨rfl, rfl⟩
      | exact .inr (.inr ⟨rfl, rfl⟩)
    · first
      | exact fun j hj => .inl hj
      | exact fun j hj => absurd hj List.not_mem_nil
      | grind [Pc.arcs, Task.arcs, Frame.arcs, Pc.cancelExecution, Pc.resourceLimitExecution,
          List.mem_toFinset]
    · first | exact Finset.Subset.refl _ | exact Finset.subset_insert _ _
    · first | exact fun j hj => .inl hj | grind

/-! ### Every reachable state -/

theorem Frame.resume_group (r : Ret) (f : Frame) :
    (f.resume r).group = none ∨ (f.resume r).group = some f.caller ∨
      f.caller = .stream ∧ (f.resume r).group = some .unregister := by
  cases f <;> simp only [Frame.resume] <;> (try split) <;> simp [Pc.group, Frame.caller]

theorem Frame.resume_arcs (r : Ret) (f : Frame) : ∀ j ∈ (f.resume r).arcs, j ∈ f.arcs := by
  cases f <;> simp only [Frame.resume] <;> (try split) <;> simp [Pc.arcs, Frame.arcs]

theorem Op.start_wellTyped (n : Nat) (op : Op) : op.start.WellTyped (.task n) := by
  cases op <;> exact ⟨_, _, .inr rfl, rfl, by simp [Frame.caller]⟩

theorem Op.start_arcs (op : Op) : ∀ j ∈ op.start.arcs, j ∈ op.session := by
  cases op <;> simp [Op.start, Op.session, Task.arcs, Pc.arcs, Frame.arcs, Pc.cancelExecution,
    Pc.resourceLimitExecution]

theorem Frame.base_stream (h : Frame.base .stream frames = some b) : frames = [] := by
  cases frames with
  | nil => rfl
  | cons f frames => cases f <;> simp [Frame.base, Frame.callee] at h

theorem Frame.base_cons {frames : List Frame} (h : Frame.base g (f :: frames) = some b) :
    Frame.base f.caller frames = some b := by
  simp only [Frame.base] at h
  split at h
  · exact h
  · cases h

theorem Task.WellTyped.resume {frames : List Frame}
    (h : Task.WellTyped t ⟨.done r, f :: frames⟩) :
    Task.WellTyped t ⟨f.resume r, frames⟩ := by
  obtain ⟨g, b, -, hb, ht⟩ := h
  have hb' := Frame.base_cons hb
  rcases f.resume_group r with hg | hg | ⟨hs, hg⟩
  · exact ⟨_, b, .inl hg, hb', ht⟩
  · exact ⟨_, b, .inr hg, hb', ht⟩
  · rw [hs] at hb'
    obtain rfl := Frame.base_stream hb'
    obtain rfl : Group.stream = b := by simpa [Frame.base] using hb'
    exact ⟨.unregister, .unregister, .inr hg, rfl, by simpa using ht⟩

theorem Task.WellTyped.continues {task : Task} (h : task.WellTyped t)
    (hc : Continues sh task.pc o) (hg : task.pc.group ≠ none) :
    Task.WellTyped t ⟨o.pc, o.frame.toList ++ task.frames⟩ := by
  obtain ⟨g, b, hpc, hb, ht⟩ := h
  have hpc : task.pc.group = some g := hpc.resolve_left hg
  have hs := hc.stack
  split at hs
  · rename_i hframe
    simp only [hframe, Option.toList_none, List.nil_append]
    rcases hs with hs | hs | ⟨hstream, hs⟩
    · exact ⟨g, b, .inl hs, hb, ht⟩
    · exact ⟨g, b, .inr (hs.trans hpc), hb, ht⟩
    · obtain rfl : Group.stream = g := by simpa [hpc] using hstream.symm
      obtain hnil := Frame.base_stream hb
      rw [hnil] at hb ⊢
      obtain rfl : Group.stream = b := by simpa [Frame.base] using hb
      exact ⟨.unregister, .unregister, .inr hs, rfl, by simpa using ht⟩
  · rename_i f hframe
    obtain ⟨hcaller, hcallee⟩ := hs
    obtain rfl : f.caller = g := by simpa [hpc] using hcaller.symm
    refine ⟨f.callee, b, .inr hcallee, ?_, ht⟩
    simpa [hframe, Frame.base] using hb

theorem exec_group (h : exec env t choice sh pc = some o) : pc.group ≠ none := by
  cases pc <;> simp [Pc.group] <;> cases h

structure Orderly (s : State) : Prop where
  typed : ∀ t, (s.task t).WellTyped t
  arcs : ∀ t, ∀ j ∈ (s.task t).arcs, j ∈ s.shared.created
  sessions : s.shared.sessions ⊆ s.shared.created

theorem Orderly.new : Orderly .new where
  typed
    | .dispatcher => ⟨.dispatch, .dispatch, .inr rfl, rfl, by simp⟩
    | .task _ => ⟨.create, .create, .inl rfl, rfl, by simp⟩
  arcs
    | .dispatcher => by simp [State.new, Task.arcs, Pc.arcs]
    | .task _ => by simp [State.new, Task.vacant, Task.arcs, Pc.arcs]
  sessions := Finset.Subset.refl _

theorem Orderly.replace (h : Orderly s) (typed : task.WellTyped t)
    (arcs : ∀ j ∈ task.arcs, j ∈ sh.created) (created : s.shared.created ⊆ sh.created)
    (sessions : sh.sessions ⊆ sh.created) :
    Orderly ⟨sh, Function.update s.task t task⟩ where
  typed u := by
    by_cases hu : u = t
    · subst hu; simpa using typed
    · simpa [hu] using h.typed u
  arcs u j hj := by
    by_cases hu : u = t
    · subst hu; exact arcs j (by simpa using hj)
    · exact created (h.arcs u j (by simpa [hu] using hj))
  sessions := sessions

theorem Orderly.step (h : Orderly s) (hs : s.step env a = some s') : Orderly s' := by
  cases State.step_cases hs with
  | start vacant known =>
    exact h.replace (Op.start_wellTyped _ _) (fun j hj => known j (Op.start_arcs _ j hj))
      (Finset.Subset.refl _) h.sessions
  | resume at_ =>
    rename_i t choice r f frames
    refine h.replace (Task.WellTyped.resume (at_ ▸ h.typed t)) ?_ (Finset.Subset.refl _) h.sessions
    intro j hj
    refine h.arcs t j ?_
    simp only [Task.arcs, at_, Pc.arcs, List.nil_append, List.flatMap_cons, List.mem_append] at hj ⊢
    exact hj.imp_left (f.resume_arcs r j)
  | exec he =>
    rename_i t choice o
    have hc := exec_continues he
    have hsessions : o.shared.sessions ⊆ o.shared.created := fun j hj =>
      (hc.sessions j hj).elim (fun hj => hc.created (h.sessions hj)) id
    refine h.replace ((h.typed t).continues hc (exec_group he)) ?_ hc.created hsessions
    intro j hj
    simp only [Task.arcs, List.flatMap_append, ← List.append_assoc] at hj
    rcases List.mem_append.mp hj with hj | hj
    · rcases hc.arcs j hj with hj | hj | hj
      · exact hc.created (h.arcs t j (List.mem_append_left _ hj))
      · exact hc.created (h.sessions hj)
      · exact hj
    · exact hc.created (h.arcs t j (List.mem_append_right _ hj))
  | outside ho =>
    cases ho <;> exact ⟨h.typed, h.arcs, h.sessions⟩

theorem Reachable.orderly (h : Reachable env s) : Orderly s :=
  h.invariant Orderly.new fun _ hi _ hs => hi.step hs

end SmartC.Executor
