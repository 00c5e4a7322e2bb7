import SmartC.Executor.Branches

/-!
# Writes to a session

Every place where an operation writes to `session.inner`, with the fields that it
sets. What no place sets never changes, a new session apart.
-/

namespace SmartC.Executor

open Function (update)

/-- `InnerWrite pc i i'`: the step at `pc` replaces the session's `i` by `i'`. -/
inductive InnerWrite : Pc → SessionInner → SessionInner → Prop
  | consumed {j i} : InnerWrite (.consumeTicketLimits j) i
      { i with ticketConsumed := true, pendingActivation := true, limitsReserved := true }
  | activated {j i} : InnerWrite (.activateSession j) i
      { i with pendingActivation := false, socketConnected := true }
  | stdin {j data i n} : InnerWrite (.sendStdin j data) i { i with stdinBytes := n }
  | phase {j code i p} : InnerWrite (.applyPhase j code) i { i with phase := p }
  | compilerOutput {j stream data i n} :
      InnerWrite (.applyCompilerOutput j stream data) i { i with compilerOutputBytes := n }
  | terminalOutput {j data i n} :
      InnerWrite (.applyTerminalOutput j data) i { i with terminalOutputBytes := n }
  | finished {j e i} : InnerWrite (.completeSession j e .finish) i
      { i with phase := e.phase, finished := true, assignedWorker := none }
  | released {j e worker i} : InnerWrite (.completeSession j e (.releaseInner worker)) i
      { i with limitsReleased := true, pendingActivation := false, limitsReserved := false }
  | assigned {j i w} : InnerWrite (.dispatchWorkers j) i { i with assignedWorker := some w }

inductive Writes (sh : Shared) (pc : Pc) (o : Outcome) : Prop
  | nothing (inner : o.shared.inner = sh.inner)
  | one {j i} (inner : o.shared.inner = update sh.inner j i) (write : InnerWrite pc (sh.inner j) i)
  | new {j} (fresh : j ∉ sh.created) (inner : o.shared.inner = update sh.inner j .new)

theorem exec_writes (h : exec env t choice sh pc = some o) : Writes sh pc o := by
  cases exec_branch h with
  | inserted drawn fresh room => exact .new fresh rfl
  | admitted => exact .one rfl .consumed
  | activated => exact .one rfl .activated
  | stdin => exact .one rfl .stdin
  | phaseChanged => exact .one rfl .phase
  | compilerCounted | compilerLimited => exact .one rfl .compilerOutput
  | terminalCounted | terminalLimited => exact .one rfl .terminalOutput
  | finished => exact .one rfl .finished
  | released => exact .one rfl .released
  | assigned => exact .one rfl .assigned
  | _ => exact .nothing rfl

end SmartC.Executor
