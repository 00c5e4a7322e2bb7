import SmartC.Executor.Branches

/-!
# Counting the output of a job

`apply_compiler_output` and `apply_terminal_output` add the bytes of an event
to a counter of the session and compare it with a limit. From the moment a
handler has taken an event in until it is counted, its bytes are `uncounted`.
An `OutputCounter` is either of the two.
-/

namespace SmartC

def EventPayload.compilerBytes : EventPayload → Nat
  | .compilerOutput _ data => data.length
  | _ => 0

def EventPayload.terminalBytes : EventPayload → Nat
  | .terminalOutput data => data.length
  | _ => 0

def JobEvent.payloadOf (j : Uuid) (e : JobEvent) : Option EventPayload :=
  if e.jobId.parse = some j then e.payload else none

def outputBytes (bytes : EventPayload → Nat) (events : List EventPayload) : Nat :=
  (events.map bytes).sum

@[simp] theorem outputBytes_nil (bytes : EventPayload → Nat) : outputBytes bytes [] = 0 := rfl

theorem outputBytes_append (bytes : EventPayload → Nat) (events more : List EventPayload) :
    outputBytes bytes (events ++ more) = outputBytes bytes events + outputBytes bytes more := by
  simp [outputBytes]

@[simp] theorem outputBytes_singleton (bytes : EventPayload → Nat) (e : EventPayload) :
    outputBytes bytes [e] = bytes e := by
  simp [outputBytes]

theorem outputBytes_mono (bytes : EventPayload → Nat) {events more : List EventPayload}
    (h : events <+: more) : outputBytes bytes events ≤ outputBytes bytes more := by
  obtain ⟨rest, rfl⟩ := h
  rw [outputBytes_append]
  exact Nat.le_add_right _ _

end SmartC

namespace SmartC.Executor

open Function (update)

/-- The event of job `j` that an operation has taken in and not counted yet. -/
def Pc.uncounted (j : Uuid) : Pc → Option EventPayload
  | .handleWorkerEvent _ e => e.payloadOf j
  | .handleWorkerEventSession i payload => if i = j then payload else none
  | .applyCompilerOutput i stream data => if i = j then some (.compilerOutput stream data) else none
  | .applyTerminalOutput i data => if i = j then some (.terminalOutput data) else none
  | _ => none

def Frame.isOutputLimited : Frame → Bool
  | .outputLimited _ => true
  | _ => false

def Shared.outputs (sh : Shared) (j : Uuid) : Nat × Nat :=
  ((sh.inner j).compilerOutputBytes, (sh.inner j).terminalOutputBytes)

inductive CountStep (sh : Shared) (choice : Choice) : Pc → Outcome → Prop
  | other {source target} (outputs : ∀ j, target.shared.outputs j = sh.outputs j ∨
        target.shared.outputs j = (0, 0))
      (later : ∀ j, target.pc.uncounted j = none)
      (frame : target.frame.any Frame.isOutputLimited = false) : CountStep sh choice source target
  | heard {w c e} (inbound : choice = .inbound (some (.event e))) :
      CountStep sh choice (.processWorkerStream w c)
        ⟨sh, .handleWorkerEvent c e, some (.processWorkerStream w c)⟩
  | accepted {c e j sh'} (job : e.jobId.parse = some j) (outputs : sh'.outputs = sh.outputs) :
      CountStep sh choice (.handleWorkerEvent c e)
        ⟨sh', .handleWorkerEventSession j e.payload, none⟩
  | compiler {j stream data} :
      CountStep sh choice (.handleWorkerEventSession j (some (.compilerOutput stream data)))
        ⟨sh, .applyCompilerOutput j stream data, none⟩
  | terminal {j data} :
      CountStep sh choice (.handleWorkerEventSession j (some (.terminalOutput data)))
        ⟨sh, .applyTerminalOutput j data, none⟩
  | countedCompiler {j stream data target}
      (outputs : target.shared.outputs = update sh.outputs j
        (saturatingAdd (sh.outputs j).1 data.length, (sh.outputs j).2))
      (later : ∀ j, target.pc.uncounted j = none)
      (frame : target.frame.any Frame.isOutputLimited = true →
        compilerOutputLimitBytes < saturatingAdd (sh.outputs j).1 data.length) :
      CountStep sh choice (.applyCompilerOutput j stream data) target
  | countedTerminal {j data target}
      (outputs : target.shared.outputs = update sh.outputs j
        ((sh.outputs j).1, saturatingAdd (sh.outputs j).2 data.length))
      (later : ∀ j, target.pc.uncounted j = none)
      (frame : target.frame.any Frame.isOutputLimited = true →
        terminalOutputLimitBytes < saturatingAdd (sh.outputs j).2 data.length) :
      CountStep sh choice (.applyTerminalOutput j data) target

section

variable {env : Env} {t : Tid} {choice : Choice} {sh : Shared} {pc : Pc} {o : Outcome} {j c : Uuid}
  {e : JobEvent} {payload : Option EventPayload} {stream : Int} {data : Bytes} {w : String}

theorem outputs_setInner (i : SessionInner) : (sh.setInner j i).outputs =
    update sh.outputs j (i.compilerOutputBytes, i.terminalOutputBytes) := by
  funext k
  by_cases hk : k = j
  · subst hk; simp [Shared.outputs, Shared.setInner]
  · simp [Shared.outputs, Shared.setInner, hk]

theorem outputs_same {sh' : Shared} {i : SessionInner} (hi : sh'.inner = update sh.inner j i)
    (hc : i.compilerOutputBytes = (sh.inner j).compilerOutputBytes)
    (ht : i.terminalOutputBytes = (sh.inner j).terminalOutputBytes) : sh'.outputs = sh.outputs := by
  funext k
  by_cases hk : k = j
  · subst hk; simp [Shared.outputs, hi, hc, ht]
  · simp [Shared.outputs, hi, hk]

theorem CountStep.same (outputs : o.shared.outputs = sh.outputs)
    (later : ∀ j, o.pc.uncounted j = none) (frame : o.frame.any Frame.isOutputLimited = false) :
    CountStep sh choice pc o :=
  .other (fun j => .inl (congrFun outputs j)) later frame

theorem exec_count (h : exec env t choice sh pc = some o) : CountStep sh choice pc o := by
  cases exec_branch h with
  | eventRead inbound => exact .heard inbound
  | accepted job => exact .accepted job rfl
  | compilerEvent => exact .compiler
  | terminalEvent => exact .terminal
  | compilerCounted => exact .countedCompiler (outputs_setInner _) (fun _ => rfl) nofun
  | compilerLimited free exceeded =>
    exact .countedCompiler (outputs_setInner _) (fun _ => rfl) fun _ => exceeded
  | terminalCounted => exact .countedTerminal (outputs_setInner _) (fun _ => rfl) nofun
  | terminalLimited free exceeded =>
    exact .countedTerminal (outputs_setInner _) (fun _ => rfl) fun _ => exceeded
  | @inserted id =>
    refine .other (fun k => ?_) (fun _ => rfl) rfl
    by_cases hk : k = id
    · subst hk
      exact .inr (by simp [Shared.outputs, SessionInner.new])
    · exact .inl (by simp [Shared.outputs, hk])
  | admitted | activated | stdin | phaseChanged | finished | released | assigned =>
    exact .same (outputs_same rfl rfl rfl) (fun _ => rfl) rfl
  | _ => exact .same rfl (fun _ => rfl) rfl

end

/-! ### Budgets -/

inductive OutputKind
  | compiler | terminal

namespace OutputKind

def bytes : OutputKind → EventPayload → Nat
  | .compiler => EventPayload.compilerBytes
  | .terminal => EventPayload.terminalBytes

def counter : OutputKind → Nat × Nat → Nat
  | .compiler => Prod.fst
  | .terminal => Prod.snd

def limit : OutputKind → Nat
  | .compiler => compilerOutputLimitBytes
  | .terminal => terminalOutputLimitBytes

end OutputKind

def Pc.uncountedBytes (k : OutputKind) (j : Uuid) (pc : Pc) : Nat :=
  outputBytes k.bytes (pc.uncounted j).toList

section

variable {env : Env} {t : Tid} {choice : Choice} {sh : Shared} {pc : Pc} {o : Outcome} {j c : Uuid}
  {k : OutputKind}

theorem uncountedBytes_of_none (h : pc.uncounted j = none) : pc.uncountedBytes k j = 0 := by
  rw [Pc.uncountedBytes, h, Option.toList_none, outputBytes_nil]

theorem saturatingAdd_le (a b : Nat) : saturatingAdd a b ≤ a + b := Nat.min_le_left _ _

theorem uncountedBytes_applyCompilerOutput (stream : Int) (data : Bytes) :
    Pc.uncountedBytes .compiler j (.applyCompilerOutput j stream data) = data.length := by
  simp [Pc.uncountedBytes, Pc.uncounted, OutputKind.bytes, EventPayload.compilerBytes]

theorem uncountedBytes_applyTerminalOutput (data : Bytes) :
    Pc.uncountedBytes .terminal j (.applyTerminalOutput j data) = data.length := by
  simp [Pc.uncountedBytes, Pc.uncounted, OutputKind.bytes, EventPayload.terminalBytes]

theorem exec_budget (h : exec env t choice sh pc = some o) :
    (∀ k j, k.counter (o.shared.outputs j) + o.pc.uncountedBytes k j ≤
      k.counter (sh.outputs j) + pc.uncountedBytes k j) ∨
    ∃ w c e, pc = .processWorkerStream w c ∧ choice = .inbound (some (.event e)) ∧
      o.shared = sh ∧ o.pc = .handleWorkerEvent c e := by
  cases exec_count h with
  | other outputs later =>
    refine .inl fun k j => ?_
    rw [uncountedBytes_of_none (later j)]
    rcases outputs j with hsame | hzero
    · rw [hsame]
      exact Nat.le_add_right _ _
    · rw [hzero]
      cases k <;> exact Nat.zero_le _
  | heard inbound => exact .inr ⟨_, _, _, rfl, inbound, rfl, rfl⟩
  | @accepted c e i sh' job outputs =>
    refine .inl fun k j => ?_
    have hsame : (Pc.handleWorkerEventSession i e.payload).uncounted j =
        (Pc.handleWorkerEvent c e).uncounted j := by
      simp only [Pc.uncounted, JobEvent.payloadOf, job, Option.some.injEq]
    rw [outputs, Pc.uncountedBytes, Pc.uncountedBytes, hsame]
  | compiler => exact .inl fun _ _ => Nat.le_refl _
  | terminal => exact .inl fun _ _ => Nat.le_refl _
  | @countedCompiler i stream data target outputs later frame =>
    refine .inl fun k j => ?_
    rw [uncountedBytes_of_none (later j), outputs]
    -- the bytes of the event move to the counter, which saturates
    by_cases hj : j = i
    · subst hj
      rw [Function.update_self]
      cases k with
      | compiler =>
        rw [uncountedBytes_applyCompilerOutput]
        exact saturatingAdd_le _ _
      | terminal => exact Nat.le_add_right _ _
    · rw [Function.update_of_ne hj]
      exact Nat.le_add_right _ _
  | @countedTerminal i data target outputs later frame =>
    refine .inl fun k j => ?_
    rw [uncountedBytes_of_none (later j), outputs]
    by_cases hj : j = i
    · subst hj
      rw [Function.update_self]
      cases k with
      | compiler => exact Nat.le_add_right _ _
      | terminal =>
        rw [uncountedBytes_applyTerminalOutput]
        exact saturatingAdd_le _ _
    · rw [Function.update_of_ne hj]
      exact Nat.le_add_right _ _

theorem exec_outputLimited (h : exec env t choice sh pc = some o)
    (hframe : o.frame.any Frame.isOutputLimited = true) :
    ∃ k j, k.limit < k.counter (sh.outputs j) + pc.uncountedBytes k j := by
  cases exec_count h with
  | other outputs later frame => exact absurd hframe (by rw [frame]; exact Bool.false_ne_true)
  | heard => cases hframe
  | accepted => cases hframe
  | compiler => cases hframe
  | terminal => cases hframe
  | @countedCompiler i stream data target outputs later frame =>
    refine ⟨.compiler, i, ?_⟩
    rw [uncountedBytes_applyCompilerOutput]
    exact (frame hframe).trans_le (saturatingAdd_le _ _)
  | @countedTerminal i data target outputs later frame =>
    refine ⟨.terminal, i, ?_⟩
    rw [uncountedBytes_applyTerminalOutput]
    exact (frame hframe).trans_le (saturatingAdd_le _ _)

theorem Frame.resume_uncounted (r : Ret) (f : Frame) (j : Uuid) :
    (f.resume r).uncounted j = none := by
  cases f <;> simp only [Frame.resume] <;> (try split) <;> rfl

end

end SmartC.Executor
