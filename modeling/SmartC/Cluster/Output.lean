import SmartC.Cluster.Commands
import SmartC.Worker.Forwarding
import SmartC.Worker.Output

/-!
# The worker's output limits and those of the API

The API counts the output of a job once more, for the whole session. What it
has counted, and what its handlers have taken in and not counted yet, are
bytes of events that it has heard, and these are the first events of the job
itself. So the API's counters stay below what the worker has sent.
-/

namespace SmartC.Cluster

open Executor (Tid OutputKind Frame)
open Function (update)
open Transition (ReachableWhen)
open Worker (Client ClientAction Job JobAction JobChoice WorkerConfig compileCall limitedEnd)

def heardOf (s : Cluster) (c j : Uuid) : List EventPayload :=
  ((s.client c).emitted.take (s.client c).delivered).filterMap (WorkerMessage.payloadOf j)

/-- The bytes of job `j` that a task of the API has taken in and not counted yet. -/
def uncounted (s : Cluster) (k : OutputKind) (j : Uuid) (t : Tid) : Nat :=
  (s.api.task t).pc.uncountedBytes k j

def Accounts (k : OutputKind) (j : Uuid) (s : Cluster) : Prop :=
  ∃ c, SumAtMost (k.counter (s.api.shared.outputs j)) (s.uncounted k j)
    (outputBytes k.bytes (s.heardOf c j))

section

variable {env : Executor.Env} {config : WorkerConfig} {C : Cluster → Action → Prop}
  {s s' : Cluster} {a : Action} {k : OutputKind} {c j : Uuid}

/-! ### What is heard -/

theorem StreamStep.tells {sent pending : List ApiMessage} {client : Client}
    (h : StreamStep env config s a c sent pending client) (hs : (s.client c).Sound)
    (honce : (s.client c).AssignsOnce) (ht : (s.client c).Tells) : client.Tells := by
  cases h with
  | stepped client step => exact ht.step hs honce step
  | _ => exact ht

theorem tells (h : ReachableWhen (clusterSystem env config) C s) (c : Uuid) :
    (s.client c).Tells :=
  h.invariant (I := fun s => ∀ c, (s.client c).Tells) (fun _ => .new)
    (fun hr ht _ hstep c =>
      (step_stream (piped hr) hstep c).tells (sound hr c) (assignsOnce hr c) (ht c)) c

theorem heardOf_grows (hp : Piped s) (hs : s.step env config a = some s') (c j : Uuid) :
    s.heardOf c j <+: s'.heardOf c j := by
  have hstream := step_stream hp hs c
  exact (take_prefix_take hstream.emitted hstream.delivered_le).filterMap _

theorem heardOf_first (h : ReachableWhen (clusterSystem env config) C s) (c j : Uuid) :
    s.heardOf c j <+: ((s.client c).jobs j).sent := by
  rw [← tells h c j]
  exact (List.take_prefix _ _).filterMap _

theorem assigned_of_sent (h : ReachableWhen (clusterSystem env config) C s)
    (hj : ((s.client c).jobs j).sent ≠ []) : j ∈ (s.sent c).filterMap ApiMessage.assigned := by
  refine mem_sent_of_received (piped h) ?_
  by_contra hassigned
  rw [(sound h c).absent j hassigned] at hj
  exact hj rfl

/-! ### What is counted -/

theorem Accounts.new (k : OutputKind) (j : Uuid) : Accounts k j .new := by
  refine ⟨0, ?_⟩
  have hzero : k.counter ((Cluster.new).api.shared.outputs j) = 0 := by cases k <;> rfl
  rw [hzero]
  refine .zero fun t => ?_
  cases t with
  | dispatcher => rfl
  | task n => rfl

theorem Accounts.idle (h : Accounts k j s) (htask : s'.api.task = s.api.task)
    (houtputs : s'.api.shared.outputs j = s.api.shared.outputs j)
    (hheard : ∀ c, s.heardOf c j <+: s'.heardOf c j) : Accounts k j s' := by
  obtain ⟨c, hsum⟩ := h
  have huncounted : s'.uncounted k j = s.uncounted k j := by
    funext t
    rw [uncounted, htask, uncounted]
  refine ⟨c, ?_⟩
  rw [huncounted, houtputs]
  exact hsum.mono (outputBytes_mono _ (hheard c))

theorem uncounted_update {t : Tid} {task : Executor.Task}
    (htask : s'.api.task = update s.api.task t task) :
    s'.uncounted k j = update (s.uncounted k j) t (task.pc.uncountedBytes k j) := by
  funext u
  rw [uncounted, htask]
  by_cases hu : u = t
  · subst hu
    rw [Function.update_self, Function.update_self]
  · rw [Function.update_of_ne hu, Function.update_of_ne hu, uncounted]

theorem Accounts.moves {t : Tid} {task : Executor.Task} (h : Accounts k j s)
    (htask : s'.api.task = update s.api.task t task)
    (hbudget : k.counter (s'.api.shared.outputs j) + task.pc.uncountedBytes k j ≤
      k.counter (s.api.shared.outputs j) + s.uncounted k j t)
    (hheard : ∀ c, s.heardOf c j <+: s'.heardOf c j) : Accounts k j s' := by
  obtain ⟨c, hsum⟩ := h
  refine ⟨c, ?_⟩
  rw [uncounted_update htask]
  exact (hsum.update (Nat.le_add_right_of_le hbudget : _ ≤ _ + 0)).mono
    (outputBytes_mono _ (hheard c))

/-- Only one connection has heard of a job. -/
theorem heardOf_once {c' : Uuid} (h : ReachableWhen (clusterSystem env config) C s)
    (hc : s.heardOf c j ≠ []) (hc' : s.heardOf c' j ≠ []) : c = c' := by
  have hassigned : ∀ {c}, s.heardOf c j ≠ [] → j ∈ (s.sent c).filterMap ApiMessage.assigned :=
    fun {c} hheard => assigned_of_sent h fun hnil =>
      hheard (List.prefix_nil.1 (hnil ▸ heardOf_first h c j))
  exact (assigned_once h c).2 c' j (hassigned hc) (hassigned hc')

theorem Accounts.hears {t : Tid} {e : JobEvent} {task : Executor.Task}
    (hr' : ReachableWhen (clusterSystem env config) C s') (h : Accounts k j s)
    (htask : s'.api.task = update s.api.task t task) (hpc : task.pc = .handleWorkerEvent c e)
    (houtputs : s'.api.shared.outputs j = s.api.shared.outputs j)
    (hheard : s'.heardOf c j = s.heardOf c j ++ (e.payloadOf j).toList)
    (hgrows : ∀ c, s.heardOf c j <+: s'.heardOf c j) : Accounts k j s' := by
  obtain ⟨c₀, hsum⟩ := h
  have hgain : task.pc.uncountedBytes k j = outputBytes k.bytes (e.payloadOf j).toList := by
    rw [hpc]
    rfl
  cases hpayload : e.payloadOf j with
  | none =>
    rw [hpayload] at hgain
    refine Accounts.moves ⟨c₀, hsum⟩ htask ?_ hgrows
    rw [houtputs, hgain]
    exact Nat.add_le_add_left (Nat.zero_le _) _
  | some payload =>
    -- What was heard before came from this connection, or nothing was heard before.
    have hsum' : SumAtMost (k.counter (s.api.shared.outputs j)) (s.uncounted k j)
        (outputBytes k.bytes (s.heardOf c j)) := by
      cases hold : s.heardOf c₀ j with
      | nil =>
        rw [hold] at hsum
        exact hsum.mono (Nat.zero_le _)
      | cons x rest =>
        have hc₀ : s'.heardOf c₀ j ≠ [] := fun hnil => by
          have hnone : s.heardOf c₀ j = [] := List.prefix_nil.1 (hnil ▸ hgrows c₀)
          cases hold.symm.trans hnone
        have hc : s'.heardOf c j ≠ [] := by
          rw [hheard, hpayload]
          exact List.append_ne_nil_of_right_ne_nil _ (List.cons_ne_nil _ _)
        rwa [heardOf_once hr' hc hc₀]
    refine ⟨c, ?_⟩
    rw [uncounted_update htask, houtputs, hheard, outputBytes_append, hgain]
    exact hsum'.update (by omega)

theorem heardOf_next {t : Tid} {w : String} {e : JobEvent} {api : Executor.State}
    (hadmits : s.admits (.run t (.inbound (some (.event e)))) = true)
    (hpc : (s.api.task t).pc = .processWorkerStream w c) (j : Uuid) :
    heardOf ⟨api, s.delivered (.run t (.inbound (some (.event e))))⟩ c j =
      s.heardOf c j ++ (e.payloadOf j).toList := by
  have hdelivery : s.delivery (.run t (.inbound (some (.event e)))) = some (c, .event e) := by
    simp only [delivery, hpc]
  have hnext : (s.client c).emitted[(s.client c).delivered]? = some (.event e) := by
    simpa only [admits, hdelivery, decide_eq_true_eq] using hadmits
  simp only [heardOf, delivered, hdelivery, Function.update_self]
  rw [List.take_add_one, hnext, List.filterMap_append]
  cases hpayload : e.payloadOf j <;> simp [WorkerMessage.payloadOf, hpayload]

theorem Accounts.step (hr : ReachableWhen (clusterSystem env config) C s)
    (hr' : ReachableWhen (clusterSystem env config) C s') (h : Accounts k j s)
    (hs : s.step env config a = some s') : Accounts k j s' := by
  have hgrows : ∀ c, s.heardOf c j <+: s'.heardOf c j := fun c => heardOf_grows (piped hr) hs c j
  cases step_cases hs with
  | connect => exact h.idle rfl rfl hgrows
  | client => exact h.idle rfl rfl hgrows
  | transport hnext hstep =>
    obtain ⟨ch, -, rfl⟩ := Option.map_eq_some_iff.1 hstep
    exact h.idle rfl rfl hgrows
  | api hadmits hstep =>
    cases Executor.State.step_cases hstep with
    | @start n op =>
      refine h.moves rfl (Nat.add_le_add_left ?_ _) hgrows
      have hnone : op.start.pc.uncounted j = none := by
        cases op <;> first | rfl | cases hadmits
      rw [Executor.uncountedBytes_of_none hnone]
      exact Nat.zero_le _
    | @resume u choice r f frames =>
      refine h.moves rfl (Nat.add_le_add_left ?_ _) hgrows
      rw [Executor.uncountedBytes_of_none (Executor.Frame.resume_uncounted r f j)]
      exact Nat.zero_le _
    | outside ho =>
      refine h.idle rfl ?_ hgrows
      cases ho <;> rfl
    | @exec u choice o ho =>
      rcases Executor.exec_budget ho with hbudget | ⟨w, c, e, hpc, rfl, hshared, hpc'⟩
      · exact h.moves rfl (hbudget k j) hgrows
      · exact h.hears hr' rfl hpc' (by rw [hshared]) (heardOf_next hadmits hpc j) hgrows

theorem accounts (h : ReachableWhen (clusterSystem env config) C s) (k : OutputKind) (j : Uuid) :
    Accounts k j s :=
  h.invariant (.new k j) fun hr hi hc hstep => hi.step hr (hr.step hc hstep) hstep

/-- The API counts no more than the job has sent. -/
theorem counted_le (h : ReachableWhen (clusterSystem env config) C s) (k : OutputKind) (j : Uuid)
    (t : Tid) : ∃ c, k.counter (s.api.shared.outputs j) + s.uncounted k j t ≤
      outputBytes k.bytes ((s.client c).jobs j).sent := by
  obtain ⟨c, hsum⟩ := accounts h k j
  exact ⟨c, (hsum.le t).trans (outputBytes_mono _ (heardOf_first h c j))⟩

/-! ### The limits -/

/-- Whatever a linker prints fits into what the compiler has left of the limit, or is more than
the limit by itself. -/
def linkFits (config : WorkerConfig) (s : Cluster) : Action → Bool
  | .client c (.job j (.run choice)) => ((s.client c).jobs j).linkFits config choice
  | _ => true

theorem limited (hcompile : config.compileOutputLimit < 2 ^ 64 - 1)
    (hruntime : config.runtimeOutputLimit < 2 ^ 64 - 1)
    (h : ReachableWhen (clusterSystem env config) (fun s a => s.linkFits config a = true) s)
    (c j : Uuid) : ((s.client c).jobs j).Limited config := by
  refine h.invariant (I := fun s => ∀ c j, ((s.client c).jobs j).Limited config)
    (fun _ j => .absent j) ?_ c j
  intro s s' a hr hi hc hstep c j
  refine ((step_stream (piped hr) hstep c).job j).limited hcompile hruntime (hi c j) ?_
  rintro choice rfl
  exact hc

/-- Each step of job `j` on connection `c` drains its process, which prints `printed` bytes. -/
def drains (c j : Uuid) (printed : Nat) (s : Cluster) : Action → Bool
  | .client c' (.job j' (.run choice)) =>
    c' ≠ c || j' ≠ j || ((s.client c).jobs j).drains printed choice
  | _ => true

theorem overprints {printed : Nat} (hcompile : config.compileOutputLimit < 2 ^ 64 - 1)
    (hruntime : config.runtimeOutputLimit < 2 ^ 64 - 1)
    (hr : ReachableWhen (clusterSystem env config) (fun s a => s.linkFits config a = true) s)
    (h : ((s.client c).jobs j).Overprints config printed)
    (hlater : ReachableWhen (.ofStep s (step env config))
      (fun s a => s.linkFits config a = true ∧ s.drains c j printed a = true) s') :
    ((s'.client c).jobs j).Overprints config printed := by
  refine (hlater.invariant (I := fun s' =>
    ReachableWhen (clusterSystem env config) (fun s a => s.linkFits config a = true) s' ∧
      ((s'.client c).jobs j).Overprints config printed) ⟨hr, h⟩ ?_).2
  rintro s₁ s₂ a - ⟨hr, hi⟩ ⟨hfits, hdrains⟩ hstep
  refine ⟨hr.step hfits hstep, ?_⟩
  refine ((step_stream (piped hr) hstep c).job j).overprints (sound hr c) (assignsOnce hr c)
    hcompile (limited hcompile hruntime hr c j) hi ?_
  rintro choice rfl
  simpa [drains] using hdrains

def Unlimited (s : Cluster) : Prop :=
  ∀ t, ∀ f ∈ (s.api.task t).frames, f.isOutputLimited = false

theorem frames_update {t u : Tid} {task : Executor.Task} {api : Executor.State}
    (h : ∀ t, ∀ f ∈ (api.task t).frames, f.isOutputLimited = false)
    (htask : ∀ f ∈ task.frames, f.isOutputLimited = false) :
    ∀ f ∈ (update api.task u task t).frames, f.isOutputLimited = false := by
  by_cases hu : t = u
  · subst hu
    rwa [Function.update_self]
  · rw [Function.update_of_ne hu]
    exact h t

theorem Unlimited.step (h : Unlimited s) (hs : s.step env config a = some s')
    (hwithin : ∀ k j t, k.counter (s.api.shared.outputs j) + s.uncounted k j t ≤ k.limit) :
    Unlimited s' := by
  intro t
  cases step_cases hs with
  | connect => exact h t
  | client => exact h t
  | transport hnext hstep =>
    obtain ⟨ch, -, rfl⟩ := Option.map_eq_some_iff.1 hstep
    exact h t
  | api hadmits hstep =>
    cases Executor.State.step_cases hstep with
    | @start n op =>
      refine frames_update h fun f hf => ?_
      cases op with
      | work r =>
        rw [List.mem_singleton.1 hf]
        rfl
      | _ => cases hf
    | @resume u choice r f frames at_ =>
      refine frames_update h fun g hg => h u g ?_
      rw [at_]
      exact List.mem_cons_of_mem _ hg
    | outside ho => exact h t
    | @exec u choice o ho =>
      refine frames_update h fun f hf => ?_
      rcases List.mem_append.1 hf with hf | hf
      · -- A frame of this kind is pushed only over the limit.
        by_contra hlimited
        have hany : o.frame.any Frame.isOutputLimited = true := by
          rw [Option.mem_toList.1 hf]
          exact Bool.eq_true_of_not_eq_false hlimited
        obtain ⟨k, j, hover⟩ := Executor.exec_outputLimited ho hany
        exact absurd hover (Nat.not_lt.2 (hwithin k j u))
      · exact h u f hf

/-- In every run in which what a linker prints fits into what the compiler has left: the output
of a job stays within both limits of the API, and the API never answers that it is too much and
never cancels a job for it. Output beyond a limit that is received ends the job as resource
limited. A process that prints more than it may, received or not, is in its loop until the job
ends so, if from then on the loop is not left with output unread and messages are enqueued in
time. -/
theorem worker_limits_imply_api_limits
    (h : ReachableWhen (clusterSystem env .forTest) (fun s a => s.linkFits .forTest a = true) s) :
    (∀ c j, outputBytes EventPayload.compilerBytes ((s.client c).jobs j).sent ≤
        Executor.compilerOutputLimitBytes ∧
      outputBytes EventPayload.terminalBytes ((s.client c).jobs j).sent ≤
        Executor.terminalOutputLimitBytes) ∧
    (∀ t, ∀ f ∈ (s.api.task t).frames, f.isOutputLimited = false) ∧
    (∀ c j choice job, s.linkFits .forTest (.client c (.job j (.run choice))) = true →
      ((s.client c).jobs j).overruns .forTest choice →
      ((s.client c).jobs j).execute .forTest choice = some job →
        job.sent = ((s.client c).jobs j).sent ∧
        ∃ job₁ job₂, job.execute .forTest (.send .sent) = some job₁ ∧
          job₁.execute .forTest (.send .sent) = some job₂ ∧ job₂.pc = .returned ∧
          job₂.sent = job.sent ++ limitedEnd) ∧
    ∀ c j printed, ((s.client c).jobs j).exceeds .forTest printed →
      ∀ s', ReachableWhen (.ofStep s (step env .forTest))
        (fun s a => s.linkFits .forTest a = true ∧ s.drains c j printed a = true) s' →
      ((s'.client c).jobs j).exceeds .forTest printed ∨ ((s'.client c).jobs j).EndsLimited := by
  have hcompile : WorkerConfig.forTest.compileOutputLimit < 2 ^ 64 - 1 := by decide
  have hruntime : WorkerConfig.forTest.runtimeOutputLimit < 2 ^ 64 - 1 := by decide
  have hsent : ∀ {s}, ReachableWhen (clusterSystem env .forTest)
      (fun s a => s.linkFits .forTest a = true) s → ∀ (k : OutputKind) (c j : Uuid),
      outputBytes k.bytes ((s.client c).jobs j).sent ≤ k.limit := by
    intro s hr k c j
    have hlimited := limited hcompile hruntime hr c j
    cases k with
    | compiler => exact (Nat.le_add_right _ _).trans hlimited.compiler.bounded
    | terminal => exact (Nat.le_add_right _ _).trans hlimited.terminal.bounded
  refine ⟨fun c j => ⟨hsent h .compiler c j, hsent h .terminal c j⟩, ?_, ?_, ?_⟩
  -- the API counts no more than it has heard, and that was sent
  · refine h.invariant (I := Unlimited) (fun t => ?_) fun hr hi _ hstep =>
      hi.step hstep fun k j t => ?_
    · cases t <;> exact nofun
    · obtain ⟨c, hle⟩ := counted_le hr k j t
      exact hle.trans (hsent hr k c j)
  · intro c j choice job hfits hover hexecute
    obtain ⟨hsame, hpc⟩ :=
      (limited hcompile hruntime h c j).overruns hcompile hruntime hfits hover hexecute
    exact ⟨hsame, Worker.returns_limited hpc⟩
  · intro c j printed hexceeds s' hlater
    exact overprints hcompile hruntime h (.inl hexceeds) hlater

end

/-! ### The compiler and the linker both print -/

def Schedule.print (data : Bytes) : List JobChoice :=
  [.pipe (some (.data .stderr data)), .send .sent]

def Schedule.startCompiler : List Action :=
  Schedule.activeJob ++
    Schedule.job 100 7 [.workspace none, .send .sent, .remaining false, .spawn none]

def Schedule.compile (blocks : List Bytes) : List Action :=
  Schedule.startCompiler ++ Schedule.job 100 7 (blocks.flatMap Schedule.print ++
    [.exitCode (.ok (some (some 0))), .drained, .remaining false, .spawn none])

def Schedule.hearOutput (data : Bytes) (k : Nat) : List Action :=
  Schedule.hear 0 (.event ⟨"w", .canonical 7, some (.compilerOutput 2 data)⟩) k

/-- Two blocks of the compiler and the linker are counted by the API, and a compiler that prints
65 blocks of 4096 bytes makes its job end as resource limited. -/
theorem both_stages_print :
    (∃ s, ReachableWhen (clusterSystem .forTest .forTest)
        (fun s a => s.linkFits .forTest a = true) s ∧
      (s.api.shared.inner 7).compilerOutputBytes = 3 ∧
      outputBytes EventPayload.compilerBytes ((s.client 100).jobs 7).sent ≤ 256 * 1024) ∧
    ∃ s s', ReachableWhen (clusterSystem .forTest .forTest)
        (fun s a => s.linkFits .forTest a = true) s ∧
      ((s.client 100).jobs 7).exceeds .forTest (65 * 4096) ∧
      ReachableWhen (.ofStep s (step .forTest .forTest)) (fun s a =>
        s.linkFits .forTest a = true ∧ s.drains 100 7 (65 * 4096) a = true) s' ∧
      ((s'.client 100).jobs 7).pc = .returned ∧ ((s'.client 100).jobs 7).EndsLimited := by
  constructor
  · obtain ⟨s, hs, hp⟩ := Transition.reachableWhen_of_execute
      (f := Cluster.step .forTest .forTest) (i := .new) (c := linkFits .forTest)
      (Schedule.compile [[119, 10]] ++ Schedule.job 100 7 (Schedule.print [108]) ++
        Schedule.hear 0 (.event ⟨"w", .canonical 7, some (.phase 2)⟩) 5 ++
        Schedule.hearOutput [119, 10] 6 ++ Schedule.hearOutput [108] 6)
      (p := fun s => (s.api.shared.inner 7).compilerOutputBytes = 3) (by decide +kernel)
    exact ⟨s, hs, of_decide_eq_true hp, ((worker_limits_imply_api_limits hs).1 100 7).1⟩
  · let later (s : Cluster) := Transition.execute (Transition.guarded (fun s a =>
      s.linkFits .forTest a && s.drains 100 7 (65 * 4096) a) (step .forTest .forTest)) s
      (Schedule.job 100 7 ((List.replicate 64 (Schedule.print (List.replicate 4096 119))).flatten ++
        [.pipe (some (.data .stderr (List.replicate 4096 119))), .send .sent, .send .sent]))
    obtain ⟨s, hs, hp⟩ := Transition.reachableWhen_of_execute
      (f := Cluster.step .forTest .forTest) (i := .new) (c := linkFits .forTest)
      Schedule.startCompiler (p := fun s => decide
        (((s.client 100).jobs 7).pc = .compile false ⟨0, 0, none⟩ ∧
          ((s.client 100).jobs 7).sent = [.phase 2]) &&
        (later s).map (fun s' => decide (((s'.client 100).jobs 7).pc = .returned)) == some true)
      (by decide +kernel)
    obtain ⟨hstart, hlater⟩ := Bool.and_eq_true_iff.1 hp
    obtain ⟨hpc, hsent⟩ := of_decide_eq_true hstart
    obtain ⟨s', hs', hreturned⟩ := Transition.reachableWhen_of_execute _ (eq_of_beq hlater)
    have hs' := hs'.weaken fun _ _ => Bool.and_eq_true_iff.1
    have hreturned := of_decide_eq_true hreturned
    have hexceeds : ((s.client 100).jobs 7).exceeds .forTest (65 * 4096) := by
      rw [Job.exceeds, hpc]
      exact ⟨0, by rw [Worker.Gauge.total, hpc, hsent]; rfl, by decide⟩
    refine ⟨s, s', hs, hexceeds, hs', hreturned, ?_⟩
    refine ((worker_limits_imply_api_limits hs).2.2.2 100 7 _ hexceeds s' hs').resolve_left ?_
    rw [Job.exceeds, hreturned]
    exact id

set_option maxRecDepth 2000 in
/-- The compiler prints as much as it may and succeeds, and the linker prints one byte: the API
is cancelling the job, to answer that its output was too much. A compiler whose reader has read
65 blocks of 4096 bytes has exited; the loop has enqueued one of them when the drain deadline
passes, and goes on to the linker. -/
theorem excess_output_is_cancelled_or_lost :
    (∃ s, Transition.Reachable (clusterSystem .forTest .forTest) s ∧
      outputBytes EventPayload.compilerBytes ((s.client 100).jobs 7).sent = 256 * 1024 + 1 ∧
      (s.api.task (.task 0)).frames.any Frame.isOutputLimited = true) ∧
    ∃ c, Transition.Reachable ((compileCall .forTest false).system .forTest
        ((Job.new ⟨.canonical 7, 80, 24, []⟩).goto (.compile false ⟨0, 0, none⟩))) c ∧
      256 * 1024 < ((c.pipes.reader .stderr).blocks.map List.length).sum ∧
      c.job.pc = .compileStage true := by
  constructor
  · obtain ⟨s, hs, hp⟩ := Transition.reachable_of_execute
      (f := Cluster.step .forTest .forTest) (i := .new)
      (Schedule.compile (List.replicate 64 (List.replicate 4096 119)) ++
        Schedule.job 100 7 (Schedule.print [108]) ++
        Schedule.hear 0 (.event ⟨"w", .canonical 7, some (.phase 2)⟩) 5 ++
        (List.replicate 64 (Schedule.hearOutput (List.replicate 4096 119) 6)).flatten ++
        Schedule.hearOutput [108] 3)
      (p := fun s =>
        outputBytes EventPayload.compilerBytes ((s.client 100).jobs 7).sent = 256 * 1024 + 1 ∧
        (s.api.task (.task 0)).frames.any Frame.isOutputLimited = true) (by decide +kernel)
    exact ⟨s, hs, of_decide_eq_true hp⟩
  · obtain ⟨c, hc, hp⟩ := Transition.reachable_of_execute
      (f := (compileCall .forTest false).step .forTest)
      (i := ⟨(Job.new ⟨.canonical 7, 80, 24, []⟩).goto (.compile false ⟨0, 0, none⟩), .new⟩)
      ((List.replicate 64 [.reader .stderr (.read (List.replicate 4096 119)),
          .reader .stderr .put]).flatten ++
        [.job (.run (.exitCode (.ok (some (some 0))))), .receive,
          .reader .stderr (.read (List.replicate 4096 119)), .job (.run (.send .sent)),
          .job (.run .drained)])
      (p := fun c => 256 * 1024 < ((c.pipes.reader .stderr).blocks.map List.length).sum ∧
        c.job.pc = .compileStage true) (by decide +kernel)
    exact ⟨c, hc, of_decide_eq_true hp⟩

end SmartC.Cluster
