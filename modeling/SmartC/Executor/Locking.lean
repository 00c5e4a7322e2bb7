import Mathlib.Data.Fintype.EquivFin
import SmartC.Executor.Branches
import SmartC.Locks

/-!
# Taking and releasing the locks

In the step model of `SmartC.Executor.Step` a lock is tested when a step needs
it. Here asking for a lock, being let in, and releasing it are steps of their
own, and the step of the operation is taken in between, with the lock held.
`session.inner`, `queue`, `limits` and `workers` are mutexes; `sessions` is a
read-write lock. Seen without the locks, every run is one of the step model
(`reachable_state`).

`is_ready` and `render_metrics` change nothing and are not operations of the
step model. They take locks too, and run here as probes.
-/

namespace SmartC.Executor

open Function (update)

inductive LockName
  | inner (j : Uuid)
  | queue
  | limits
  | workers
  | sessions
  deriving DecidableEq, Repr

/-- The lock that the next step takes. A check that fails before the lock is taken needs none. -/
def Pc.lock (env : Env) : Pc → Option (LockName × Mode)
  | .createExecutionInsert .. | .completeSession _ _ .remove => some (.sessions, .alone)
  | .executionWebsocket .. | .handleWorkerEventSession .. | .unregisterWorkerSession ..
  | .dispatchSession _ | .maintenanceNow => some (.sessions, .together)
  | .consumeTicketInner j | .activateSession j | .stop _ j | .sendCommand j _
  | .applyCompilerOutput j _ _ | .applyTerminalOutput j _ | .completeSession j _ .finish
  | .completeSession j _ (.releaseInner _) | .dispatchInner j
  | .maintenanceSessions _ (j :: _) => some (.inner j, .alone)
  | .websocketSnapshot s => some (.inner s.session, .alone)
  | .sendStdin j data => if 8 * 1024 < data.length then none else some (.inner j, .alone)
  | .applyPhase j phase => (protocolPhase phase).map fun _ => (.inner j, .alone)
  | .consumeTicketQueue _ | .activateSessionQueue _ | .stopQueue .. | .dispatchPop
  | .dispatchPushFront .. => some (.queue, .alone)
  | .consumeTicketLimits _ | .activateSessionLimits _
  | .completeSession _ _ (.releaseLimits ..) => some (.limits, .alone)
  | .sendCommandWorker .. | .heartbeat .. | .completeSession _ _ (.freeWorker (some _))
  | .unregisterWorker .. | .dispatchWorkers _ | .maintenanceOnce => some (.workers, .alone)
  | .registerWorker r _ =>
    if r.workerId.isEmpty ∨ 128 < r.workerId.utf8ByteSize then none
    else if r.architecture.isEmpty ∨ r.backend.isEmpty then none
    else if env.config.requireNsjailWorkers ∧ r.backend ≠ "nsjail" then none
    else some (.workers, .alone)
  | .handleWorkerEvent _ e => e.jobId.parse.map fun _ => (.workers, .alone)
  | _ => none

/-- The locks that the task keeps from earlier steps, the one taken last first. -/
def Pc.keeps : Pc → List LockName
  | .consumeTicketQueue j | .dispatchWorkers j => [.inner j]
  | .consumeTicketLimits j => [.queue, .inner j]
  | .activateSessionLimits _ => [.queue]
  | _ => []

/-- The locks that the task holds when it takes its step. -/
def Pc.holding (env : Env) (pc : Pc) : List LockName :=
  ((pc.lock env).map Prod.fst).toList ++ pc.keeps

/-- The two functions that only look: `is_ready` counts workers, `render_metrics` counts the
sessions, the jobs in the queue and the workers. -/
inductive Probe
  | isReady | renderMetrics
  deriving DecidableEq, Repr

def Probe.locks : Probe → List (LockName × Mode)
  | .isReady => [(.workers, .alone)]
  | .renderMetrics => [(.sessions, .together), (.queue, .alone), (.workers, .alone)]

inductive Caller
  | task (t : Tid)
  | probe (n : Nat)
  deriving DecidableEq, Repr

/-- Where a task is between two steps of its operation: it has locks of the last step to release,
or it has asked for the lock of the next one. -/
inductive Stage
  | leaving (ks : List LockName)
  | asked
  deriving DecidableEq, Repr

/-- The locks that a probe has still to take, and whether it has asked for the first. -/
structure Probing where
  rest : List (LockName × Mode)
  asked : Bool
  deriving DecidableEq, Repr

structure LockedState where
  state : State
  lock : LockName → Lock Caller
  stage : Tid → Stage
  probe : Nat → Probing

def LockedState.new : LockedState where
  state := .new
  lock _ := .free
  stage _ := .leaving []
  probe _ := ⟨[], false⟩

namespace LockedState

def setLock (s : LockedState) (k : LockName) (l : Lock Caller) : LockedState :=
  { s with lock := update s.lock k l }

def setStage (s : LockedState) (t : Tid) (stage : Stage) : LockedState :=
  { s with stage := update s.stage t stage }

def setProbe (s : LockedState) (n : Nat) (probe : Probing) : LockedState :=
  { s with probe := update s.probe n probe }

def pc (s : LockedState) (t : Tid) : Pc := (s.state.task t).pc

/-- The step of the operation. Afterwards the task releases what it does not keep. -/
def perform (env : Env) (s : LockedState) (t : Tid) (choice : Choice) : Option LockedState :=
  (s.state.run env t choice).map fun state =>
    { s with state := state }.setStage t
      (.leaving (((s.pc t).holding env).filter (· ∉ (state.task t).pc.keeps)))

def run (env : Env) (s : LockedState) (t : Tid) (choice : Choice) : Option LockedState :=
  match s.stage t, (s.pc t).lock env with
  | .leaving (k :: ks), _ =>
    some ((s.setLock k ((s.lock k).release (.task t))).setStage t (.leaving ks))
  | .leaving [], none => s.perform env t choice
  | .leaving [], some (k, mode) =>
    some ((s.setLock k ((s.lock k).ask (.task t) mode)).setStage t .asked)
  | .asked, some (k, _) => if (s.lock k).holds (.task t) then s.perform env t choice else none
  | .asked, none => none

def runProbe (s : LockedState) (n : Nat) : Option LockedState :=
  match s.probe n with
  | ⟨[], _⟩ => none
  | ⟨(k, mode) :: rest, false⟩ =>
    some ((s.setLock k ((s.lock k).ask (.probe n) mode)).setProbe n ⟨(k, mode) :: rest, true⟩)
  | ⟨(k, _) :: rest, true⟩ =>
    if (s.lock k).holds (.probe n) then
      some ((s.setLock k ((s.lock k).release (.probe n))).setProbe n ⟨rest, false⟩)
    else none

end LockedState

/-- `outside` is a step of the step model that no task takes. -/
inductive LockAction
  | run (t : Tid) (choice : Choice)
  | probe (n : Nat)
  | look (n : Nat) (p : Probe)
  | outside (a : Action)

def LockAction.caller : LockAction → Option Caller
  | .run t _ => some (.task t)
  | .probe n => some (.probe n)
  | .look .. | .outside _ => none

def Action.isRun : Action → Bool
  | .run .. => true
  | _ => false

def LockedState.step (env : Env) (s : LockedState) : LockAction → Option LockedState
  | .run t choice => s.run env t choice
  | .probe n => s.runProbe n
  | .look n p => if (s.probe n).rest = [] then some (s.setProbe n ⟨p.locks, false⟩) else none
  | .outside a =>
    if a.isRun then none else (s.state.step env a).map fun state => { s with state := state }

def lockSystem (env : Env) : Transition.System LockedState LockAction := .ofStep .new (LockedState.step env)

def LockedState.Waits (s : LockedState) (u : Caller) : Prop := ∃ k, (s.lock k).waits u = true

/-! ### What a step keeps -/

/-- The locks that the step model keeps from one step to the next, with their owners. -/
def Shared.marked (sh : Shared) : LockName → Option Tid
  | .inner j => sh.innerLock j
  | .queue => sh.queueLock
  | .limits | .workers | .sessions => none

/-- A step keeps only locks it holds, and a lock that the step model marks is kept. -/
structure Keeping (env : Env) (t : Tid) (sh : Shared) (pc : Pc) (o : Outcome) : Prop where
  kept : ∀ k ∈ o.pc.keeps, k ∈ pc.holding env
  marked : ∀ k u, o.shared.marked k = some u → u = t ∧ k ∈ o.pc.keeps ∨
    sh.marked k = some u ∧ (k ∈ pc.keeps → k ∈ o.pc.keeps)

section

variable {env : Env} {t : Tid} {sh : Shared} {pc : Pc} {o : Outcome} {choice : Choice} {j : Uuid}
  {k : LockName} {owner : Option Tid}

theorem marked_setInnerLock :
    (sh.setInnerLock j owner).marked = update sh.marked (.inner j) owner := by
  funext k
  cases k with
  | inner i =>
    by_cases hi : i = j
    · subst hi
      rw [Function.update_self]
      exact Function.update_self ..
    · rw [Function.update_of_ne fun heq => hi (LockName.inner.inj heq)]
      exact Function.update_of_ne hi ..
  | _ => rfl

theorem marked_queueLock :
    { sh with queueLock := owner }.marked = update sh.marked .queue owner := by
  funext k
  cases k <;> rfl

theorem Keeping.plain (hbefore : pc.keeps = []) (hafter : o.pc.keeps = [])
    (hmarked : o.shared.marked = sh.marked) : Keeping env t sh pc o where
  kept k hk := by
    rw [hafter] at hk
    cases hk
  marked k u hu := by
    rw [hmarked] at hu
    rw [hbefore]
    exact .inr ⟨hu, nofun⟩

theorem Keeping.take (hlock : pc.lock env = some (k, .alone)) (hafter : o.pc.keeps = k :: pc.keeps)
    (hmarked : o.shared.marked = update sh.marked k (some t)) : Keeping env t sh pc o where
  kept k' hk' := by
    rw [hafter] at hk'
    simpa [Pc.holding, hlock] using hk'
  marked k' u hu := by
    rw [hmarked] at hu
    rw [hafter]
    by_cases hk : k' = k
    · subst hk
      rw [Function.update_self] at hu
      cases hu
      exact .inl ⟨rfl, List.mem_cons_self⟩
    · rw [Function.update_of_ne hk] at hu
      exact .inr ⟨hu, List.mem_cons_of_mem _⟩

theorem Keeping.drop (hafter : o.pc.keeps = [])
    (hmarked : ∀ k ∈ pc.keeps, o.shared.marked k = none)
    (hsame : ∀ k ∉ pc.keeps, o.shared.marked k = sh.marked k) : Keeping env t sh pc o where
  kept k hk := by
    rw [hafter] at hk
    cases hk
  marked k u hu := by
    by_cases hk : k ∈ pc.keeps
    · rw [hmarked k hk] at hu
      cases hu
    · rw [hsame k hk] at hu
      exact .inr ⟨hu, fun hkept => absurd hkept hk⟩

theorem Keeping.ticket (hafter : o.pc.keeps = []) (hmarked :
    o.shared.marked = { sh.setInnerLock j none with queueLock := none }.marked) :
    Keeping env t sh (.consumeTicketLimits j) o := by
  replace hmarked := hmarked.trans marked_queueLock
  rw [marked_setInnerLock] at hmarked
  refine .drop hafter ?_ ?_ <;> intro k hk <;> rw [hmarked] <;>
    simp only [Pc.keeps, List.mem_cons, List.not_mem_nil, or_false, not_or] at hk
  · obtain rfl | rfl := hk
    · rw [Function.update_self]
    · have hne : LockName.inner j ≠ .queue := nofun
      rw [Function.update_of_ne hne, Function.update_self]
  · rw [Function.update_of_ne hk.1, Function.update_of_ne hk.2]

theorem Keeping.dispatch (hafter : o.pc.keeps = [])
    (hmarked : o.shared.marked = (sh.setInnerLock j none).marked) :
    Keeping env t sh (.dispatchWorkers j) o := by
  rw [marked_setInnerLock] at hmarked
  refine .drop hafter ?_ ?_ <;> intro k hk <;> rw [hmarked] <;>
    simp only [Pc.keeps, List.mem_singleton] at hk
  · rw [hk, Function.update_self]
  · rw [Function.update_of_ne hk]

theorem exec_keeping (h : exec env t choice sh pc = some o) : Keeping env t sh pc o := by
  cases exec_branch h with
  | failed at_ error => cases pc <;> cases at_ <;> exact .plain rfl rfl rfl
  | unused | dispatchTaken => exact .take rfl rfl marked_setInnerLock
  | queueTaken | activating => exact .take rfl rfl marked_queueLock
  | denied | admitted => exact .ticket rfl rfl
  | enqueued =>
    refine .drop rfl ?_ ?_ <;> intro k hk <;> simp only [Pc.keeps, List.mem_singleton] at hk
    · subst hk
      rfl
    · cases k <;> first | rfl | exact absurd rfl hk
  | noWorker | assigned | notAssigned => exact .dispatch rfl rfl
  | _ => exact .plain rfl rfl rfl

theorem Frame.resume_keeps (r : Ret) (f : Frame) : (f.resume r).keeps = [] := by
  cases f <;> simp only [Frame.resume] <;> (try split) <;> rfl

theorem Op.start_keeps (op : Op) : op.start.pc.keeps = [] := by
  cases op <;> rfl

def Marked (s : State) : Prop := ∀ k t, s.shared.marked k = some t → k ∈ (s.task t).pc.keeps

theorem Outside.marked {sh' : Shared} (h : Outside sh sh') : sh'.marked = sh.marked := by
  cases h <;> rfl

theorem Marked.setTask {s : State} {task : Task} (h : Marked s)
    (hbefore : (s.task t).pc.keeps = []) : Marked (s.setTask t task) := by
  intro k u hu
  have hmem := h k u hu
  have hne : u ≠ t := by
    rintro rfl
    rw [hbefore] at hmem
    cases hmem
  have hsame : (s.setTask t task).task u = s.task u := Function.update_of_ne hne ..
  rw [hsame]
  exact hmem

theorem Marked.step {s s' : State} {a : Action} (h : Marked s) (hs : s.step env a = some s') :
    Marked s' := by
  cases State.step_cases hs with
  | start vacant known => exact h.setTask (by rw [vacant]; rfl)
  | resume at_ => exact h.setTask (by rw [at_]; rfl)
  | @exec t choice o he =>
    intro k u hu
    show k ∈ (update s.task t _ u).pc.keeps
    obtain ⟨rfl, hkept⟩ | ⟨hmarked, hkept⟩ := (exec_keeping he).marked k u hu
    · rw [Function.update_self]
      exact hkept
    · by_cases hut : u = t
      · subst hut
        rw [Function.update_self]
        exact hkept (h k u hmarked)
      · rw [Function.update_of_ne hut]
        exact h k u hmarked
  | outside ho =>
    intro k u hu
    exact h k u (ho.marked ▸ hu)

theorem Reachable.marked {s : State} (h : Reachable env s) : Marked s := by
  refine h.invariant ?_ fun _ hmarked _ hs => hmarked.step hs
  intro k t hk
  cases k <;> cases hk

end

/-! ### The order of the locks -/

def LockName.rank : LockName → Nat
  | .inner _ => 0
  | .queue => 1
  | .limits => 2
  | .workers => 3
  | .sessions => 4

theorem LockName.rank_le (k : LockName) : k.rank ≤ 4 := by
  cases k <;> simp [LockName.rank]

section

variable {env : Env} {pc : Pc} {k k' : LockName} {mode : Mode} {sh : Shared} {t : Tid}

theorem Pc.keeps_rank (hk : k ∈ pc.keeps) (hlock : pc.lock env = some (k', mode)) :
    k.rank < k'.rank := by
  cases pc with
  | consumeTicketQueue j | dispatchWorkers j | consumeTicketLimits j | activateSessionLimits j =>
    cases hlock
    simp only [Pc.keeps, List.mem_cons, List.not_mem_nil, or_false] at hk
    rcases hk with rfl | rfl <;> simp [LockName.rank]
  | _ => cases hk

theorem Pc.lock_of_keeps (env : Env) (hk : k ∈ pc.keeps) : ∃ k' mode, pc.lock env = some (k', mode) := by
  cases pc with
  | consumeTicketQueue j | dispatchWorkers j | consumeTicketLimits j | activateSessionLimits j =>
    exact ⟨_, _, rfl⟩
  | _ => cases hk

theorem Pc.keeps_nodup (pc : Pc) : pc.keeps.Nodup := by
  cases pc <;> simp [Pc.keeps]

theorem Pc.holding_nodup (env : Env) (pc : Pc) : (pc.holding env).Nodup := by
  rw [Pc.holding]
  cases hlock : pc.lock env with
  | none => exact pc.keeps_nodup
  | some x =>
    refine List.nodup_cons.2 ⟨fun hk => ?_, pc.keeps_nodup⟩
    exact Nat.lt_irrefl _ (Pc.keeps_rank hk hlock)

/-- Only `sessions` is ever shared. -/
theorem Pc.lock_alone (hlock : pc.lock env = some (k, mode)) (hk : k ≠ .sessions) :
    mode = .alone := by
  unfold Pc.lock at hlock
  repeat' split at hlock
  all_goals first
    | cases hlock <;> first | rfl | exact absurd rfl hk
    | obtain ⟨_, _, heq⟩ := Option.map_eq_some_iff.1 hlock
      cases heq
      rfl

theorem innerLock_of_marked {j : Uuid} (h : sh.marked (.inner j) = none) :
    ¬ sh.innerLock j ≠ none := not_not.2 h

theorem queueLock_of_marked (h : sh.marked .queue = none) : ¬ sh.queueLock ≠ none := not_not.2 h

theorem dispatchWorkers_enabled {j : Uuid} :
    ∃ choice o, exec env t choice sh (.dispatchWorkers j) = some o := by
  by_cases hall : sh.workers.entries.all fun e => e.2.currentJob.isSome
  · refine ⟨.go, ?_⟩
    simp only [exec, dispatchWorkers, if_pos hall, goto]
    split <;> exact ⟨_, rfl⟩
  · simp only [List.all_eq_true, not_forall] at hall
    obtain ⟨⟨w, h⟩, hmem, hidle⟩ := hall
    have hlookup : sh.workers.lookup w = some h := AList.mem_lookup_iff.2 hmem
    have hnone : ¬ h.currentJob ≠ none := by simpa using hidle
    refine ⟨.candidate w, ?_⟩
    simp only [exec, dispatchWorkers, hlookup, if_neg hnone, goto]
    repeat' split
    all_goals exact ⟨_, rfl⟩

/-- With the lock that it takes, a step can be taken. -/
theorem exec_enabled (hlock : pc.lock env = some (k, mode)) (hfree : sh.marked k = none) :
    ∃ choice o, exec env t choice sh pc = some o := by
  cases pc with
  | createExecutionInsert request expires =>
    -- some id has never been drawn
    obtain ⟨id, hid⟩ := Infinite.exists_notMem_finset sh.created
    refine ⟨.fresh id, ?_⟩
    simp only [exec, createExecutionInsert, if_neg hid, goto, fail]
    split <;> exact ⟨_, rfl⟩
  | registerWorker r capacity =>
    obtain ⟨c, hc⟩ := Infinite.exists_notMem_finset sh.connections
    refine ⟨.fresh c, ?_⟩
    simp only [exec, registerWorker, if_neg hc, goto, refuse]
    repeat' split
    all_goals exact ⟨_, rfl⟩
  | maintenanceOnce =>
    exact ⟨.stale (sh.staleWorkers env), _, if_pos (List.Perm.refl _)⟩
  | maintenanceNow =>
    exact ⟨.order sh.sessions.toList, _, if_pos ⟨Finset.nodup_toList _, Finset.toList_toFinset _⟩⟩
  | dispatchWorkers j => exact dispatchWorkers_enabled
  | completeSession j e stage =>
    rcases stage with _ | _ | _ | _ | _ | (_ | w) | _ | _ | _
    all_goals first | cases hlock; done | skip
    all_goals
      cases hlock
      refine ⟨.go, ?_⟩
      first
      | simp only [exec, completeSession, if_neg (innerLock_of_marked hfree), goto]
      | simp only [exec, completeSession, goto]
    all_goals repeat' split
    all_goals exact ⟨_, rfl⟩
  | maintenanceSessions now js =>
    cases js with
    | nil => cases hlock
    | cons j rest =>
      cases hlock
      refine ⟨.go, ?_⟩
      simp only [exec, maintenanceSessions, if_neg (innerLock_of_marked hfree), goto, call]
      split <;> exact ⟨_, rfl⟩
  | applyPhase j phase =>
    obtain ⟨p, hp, heq⟩ := Option.map_eq_some_iff.1 hlock
    cases heq
    refine ⟨.go, ?_⟩
    simp only [exec, applyPhase, hp, if_neg (innerLock_of_marked hfree), goto, refuse]
    repeat' split
    all_goals exact ⟨_, rfl⟩
  | sendStdin j data =>
    simp only [Pc.lock] at hlock
    split at hlock <;> cases hlock
    next hshort =>
      refine ⟨.go, ?_⟩
      simp only [exec, sendStdin, if_neg hshort, if_neg (innerLock_of_marked hfree), goto, fail]
      repeat' split
      all_goals exact ⟨_, rfl⟩
  -- `session.inner` is free
  | consumeTicketInner j | activateSession j | stop kind j | sendCommand j action
  | applyCompilerOutput j stream data | applyTerminalOutput j data | dispatchInner j
  | websocketSnapshot s =>
    cases hlock
    refine ⟨.go, ?_⟩
    simp only [exec, consumeTicketInner, activateSession, stop, sendCommand, applyCompilerOutput,
      applyTerminalOutput, dispatchInner, websocketSnapshot, if_neg (innerLock_of_marked hfree),
      fail, goto, call]
    repeat' split
    all_goals exact ⟨_, rfl⟩
  -- the queue is free
  | consumeTicketQueue j | activateSessionQueue j | stopQueue kind j | dispatchPop
  | dispatchPushFront j failed =>
    cases hlock
    refine ⟨.go, ?_⟩
    simp only [exec, consumeTicketQueue, activateSessionQueue, stopQueue, dispatchPop,
      dispatchPushFront, if_neg (queueLock_of_marked hfree), goto, call]
    repeat' split
    all_goals exact ⟨_, rfl⟩
  -- a lock that the step model does not mark
  | consumeTicketLimits j | activateSessionLimits j | sendCommandWorker j action w
  | heartbeat w c reported | handleWorkerEvent c e | handleWorkerEventSession j payload
  | unregisterWorker w c detail | unregisterWorkerSession j detail | dispatchSession j
  | executionWebsocket j ticket =>
    refine ⟨.go, ?_⟩
    simp only [exec, consumeTicketLimits, activateSessionLimits, sendCommandWorker, heartbeat,
      handleWorkerEvent, handleWorkerEventSession, unregisterWorker, unregisterWorkerSession,
      dispatchSession, executionWebsocket, goto, call, fail, refuse]
    repeat' split
    all_goals exact ⟨_, rfl⟩
  | _ => cases hlock

end

/-! ### The step model -/

section

variable {env : Env} {s s' : LockedState} {t : Tid} {choice : Choice}

theorem perform_state (hs : s.perform env t choice = some s') :
    s.state.run env t choice = some s'.state := by
  obtain ⟨state, hrun, rfl⟩ := Option.map_eq_some_iff.1 hs
  exact hrun

/-- Seen without the locks, a step is one of the step model or none. -/
theorem step_state {a : LockAction} (hs : s.step env a = some s') :
    s'.state = s.state ∨ ∃ b, s.state.step env b = some s'.state := by
  cases a with
  | run t choice =>
    simp only [LockedState.step, LockedState.run] at hs
    split at hs
    · cases hs
      exact .inl rfl
    · exact .inr ⟨.run t choice, perform_state hs⟩
    · cases hs
      exact .inl rfl
    · split at hs
      · exact .inr ⟨.run t choice, perform_state hs⟩
      · cases hs
    · cases hs
  | probe n =>
    simp only [LockedState.step, LockedState.runProbe] at hs
    repeat' split at hs
    all_goals cases hs
    all_goals exact .inl rfl
  | look n p =>
    simp only [LockedState.step] at hs
    split at hs <;> cases hs
    exact .inl rfl
  | outside a =>
    simp only [LockedState.step] at hs
    split at hs
    · cases hs
    · obtain ⟨state, hstep, rfl⟩ := Option.map_eq_some_iff.1 hs
      exact .inr ⟨a, hstep⟩

theorem reachable_state (h : Transition.Reachable (lockSystem env) s) : Reachable env s.state := by
  refine Transition.ReachableWhen.simulate LockedState.state rfl ?_ h
  intro s s' a _ _ hs
  exact (step_state hs).imp_right fun ⟨b, hb⟩ => ⟨b, trivial, hb⟩

end

end SmartC.Executor
