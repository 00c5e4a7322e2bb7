import SmartC.Executor.Cancel
import SmartC.Executor.Routes

/-!
# The handler of a connection

The gRPC handler registers a worker, reads its stream and unregisters it in the
end. `Task.stream` is the connection that a task is the handler of. As long as
nobody else unregisters the worker, it is registered while its handler reads
(`Served`), and a handler that has answered an exit event has freed it
(`Exiting`). A handler that goes on has lost no event (`serves_step`), and
`heartbeat` accepts the job that was assigned last on its connection.
-/

namespace SmartC.Executor

open Function (update)
open Transition (ReachableWhen)

/-! ### Who handles what -/

def Op.ofHandler : Op → Bool
  | .registerWorker .. | .heartbeat .. | .handleWorkerEvent .. | .unregisterWorker .. => true
  | _ => false

/-- The operations of the handler are left to the handler, and it is sent exits with reasons. -/
def State.isProper (s : State) : Action → Bool
  | .start _ op => !op.ofHandler
  | .run t (.inbound (some (.event e))) =>
    match (s.task t).pc with
    | .processWorkerStream .. => e.payload.all hasExitReason
    | _ => true
  | _ => true

/-- A worker that is unregistered in this step is unregistered by its own handler: all other
callers of `unregister_worker` wait for it to return. -/
def State.keepsWorkers (s : State) : Action → Bool
  | .run t _ =>
    match (s.task t).pc with
    | .unregisterWorker w c _ =>
      (s.task t).frames.isEmpty || (s.shared.workers.lookup w).all (·.connectionId != c)
    | _ => true
  | _ => true

def State.Handled (s : State) (a : Action) : Prop :=
  s.isProper a = true ∧ s.keepsWorkers a = true ∧ s.cancelsUnassigned a = true

/-- The worker and the connection that a task handles, until it has unregistered the worker. -/
def Task.stream (task : Task) : Option (String × Uuid) :=
  match task.frames.getLast?, task.pc with
  | some (.processWorkerStream w c), _ => some (w, c)
  | some (.workRegistered w), .registerWorkerNotify c => some (w, c)
  | some (.workRegistered w), .done (.connection c) => some (w, c)
  | none, .processWorkerStream w c => some (w, c)
  | none, .unregisterWorker w c _ => some (w, c)
  | _, _ => none

/-! ### The stack of a handler -/

structure Task.Based (task : Task) : Prop where
  report : task.pc.group = some .report → ∃ w c, task.frames = [.processWorkerStream w c]
  exit : task.pc.group = some .complete → task.frames.head? = some .exitApplied →
    ∃ w c, task.frames = [.exitApplied, .processWorkerStream w c]
  register : ∀ r capacity, task.pc = .registerWorker r capacity →
    task.frames = [.workRegistered r.workerId]
  heartbeat : ∀ w c reported, task.pc = .heartbeat w c reported →
    task.frames = [.processWorkerStream w c]
  event : ∀ c e, task.pc = .handleWorkerEvent c e →
    task.frames = [.processWorkerStream e.workerId c] ∧
      e.payload.all hasExitReason = true
  session : ∀ j payload, task.pc = .handleWorkerEventSession j payload →
    payload.all hasExitReason = true

section

variable {env : Env} {t : Tid} {choice : Choice} {sh : Shared} {pc : Pc} {o : Outcome}
  {s s' : State} {a : Action} {frames : List Frame}

theorem Task.Based.of_group {task : Task}
    (h : ∀ g ∈ task.pc.group, g ≠ .report ∧ g ≠ .register ∧ g ≠ .complete) : task.Based := by
  have hne : ∀ {g}, task.pc.group = some g → g ≠ .report ∧ g ≠ .register ∧ g ≠ .complete :=
    fun hg => h _ (Option.mem_def.2 hg)
  exact ⟨fun hg => absurd rfl (hne hg).1, fun hg => absurd rfl (hne hg).2.2,
    fun r capacity hpc => absurd rfl (hne (congrArg Pc.group hpc)).2.1,
    fun w c reported hpc => absurd rfl (hne (congrArg Pc.group hpc)).1,
    fun c e hpc => absurd rfl (hne (congrArg Pc.group hpc)).1,
    fun j payload hpc => absurd rfl (hne (congrArg Pc.group hpc)).1⟩

theorem Frame.resume_based (r : Ret) (f : Frame) (frames : List Frame) :
    Task.Based ⟨f.resume r, frames⟩ := by
  refine .of_group fun g hg => ?_
  rcases f.resume_group r with hnone | hcaller | ⟨-, hunregister⟩
  · cases hnone.symm.trans hg
  · obtain rfl := Option.some.inj (hcaller.symm.trans hg)
    cases f <;> simp [Frame.resume, Pc.group] at hcaller <;> simp [Frame.caller]
  · obtain rfl := Option.some.inj (hunregister.symm.trans hg)
    simp

theorem Task.WellTyped.of_group {task : Task} {g : Group} (h : task.WellTyped t)
    (hg : task.pc.group = some g) : ∃ b, Frame.base g task.frames = some b := by
  obtain ⟨g', b, hpc, hbase, -⟩ := h
  rcases hpc with hnone | hsome
  · cases hnone.symm.trans hg
  · obtain rfl := Option.some.inj (hsome.symm.trans hg)
    exact ⟨b, hbase⟩

theorem Task.WellTyped.stream_frames {task : Task} (h : task.WellTyped t)
    (hg : task.pc.group = some .stream) : task.frames = [] := by
  obtain ⟨b, hbase⟩ := h.of_group hg
  exact Frame.base_stream hbase

theorem exec_caller {g : Group} (ho : exec env t choice sh pc = some o)
    (hg : o.pc.group = some g) (hne : g ≠ .unregister) :
    o.frame = none ∧ pc.group = some g ∨
      ∃ f, o.frame = some f ∧ pc.group = some f.caller ∧ f.callee = g := by
  have hstack := (exec_continues ho).stack
  cases hframe : o.frame with
  | none =>
    rw [hframe] at hstack
    refine .inl ⟨rfl, ?_⟩
    rcases hstack with hnone | hsame | ⟨-, hunregister⟩
    · cases hnone.symm.trans hg
    · exact hsame.symm.trans hg
    · exact absurd (Option.some.inj (hg.symm.trans hunregister)) hne
  | some f =>
    rw [hframe] at hstack
    exact .inr ⟨f, rfl, hstack.1, Option.some.inj (hstack.2.symm.trans hg)⟩

theorem Frame.callee_report {f : Frame} (h : f.callee = .report) :
    ∃ w c, f = .processWorkerStream w c := by
  cases f <;> first | exact ⟨_, _, rfl⟩ | cases h

theorem Pc.stream_group (h : pc.group = some .stream) : ∃ w c, pc = .processWorkerStream w c := by
  cases pc <;> first | exact ⟨_, _, rfl⟩ | cases h

theorem Pc.register_group (h : pc.group = some .register) :
    (∃ r capacity, pc = .registerWorker r capacity) ∨ ∃ c, pc = .registerWorkerNotify c := by
  cases pc <;> first | exact .inl ⟨_, _, rfl⟩ | exact .inr ⟨_, rfl⟩ | cases h

theorem registerWorker_cases {r : WorkerRegistration} {capacity : Nat}
    (h : registerWorker env choice sh r capacity = some o) :
    o.frame = none ∧ ((∃ s, o.pc = .done (.status s)) ∨
      ∃ c, c ∉ sh.connections ∧ o.pc = .registerWorkerNotify c ∧
        ∃ hd, o.shared.workers.lookup r.workerId = some hd ∧ hd.connectionId = c) := by
  simp only [registerWorker, goto, refuse] at h
  repeat' split at h
  all_goals cases h
  iterate 4 exact ⟨rfl, .inl ⟨_, rfl⟩⟩
  rename_i c fresh _
  exact ⟨rfl, .inr ⟨c, fresh, rfl, _, AList.lookup_insert _, rfl⟩⟩

theorem processWorkerStream_cases {w : String} {c : Uuid}
    (h : processWorkerStream choice sh w c = some o) :
    o.frame = none ∧
        (o.pc = .processWorkerStream w c ∨ ∃ detail, o.pc = .unregisterWorker w c detail) ∨
      o.frame = some (.processWorkerStream w c) := by
  simp only [processWorkerStream, goto, call] at h
  repeat' split at h
  all_goals cases h
  all_goals first
    | exact .inr rfl
    | exact .inl ⟨rfl, .inl rfl⟩
    | exact .inl ⟨rfl, .inr ⟨_, rfl⟩⟩

theorem exec_not_register (ho : exec env t choice sh pc = some o) (r : WorkerRegistration)
    (capacity : Nat) : o.pc ≠ .registerWorker r capacity := by
  intro hpc
  cases exec_branch ho <;> cases hpc

theorem Task.Based.exec (h : Task.Based ⟨pc, frames⟩) (htyped : Task.WellTyped t ⟨pc, frames⟩)
    (hreason : ∀ w c e, pc = .processWorkerStream w c → choice = .inbound (some (.event e)) →
      e.payload.all hasExitReason = true) (ho : exec env t choice sh pc = some o) :
    Task.Based ⟨o.pc, o.frame.toList ++ frames⟩ where
  report hg := by
    rcases exec_caller ho hg (by simp) with ⟨hnone, hreport⟩ | ⟨f, hsome, hcaller, hcallee⟩
    · rw [hnone]
      exact h.report hreport
    · obtain ⟨w, c, rfl⟩ := Frame.callee_report hcallee
      rw [hsome, show frames = [] from htyped.stream_frames hcaller]
      exact ⟨w, c, rfl⟩
  exit hg hhead := by
    rcases exec_caller ho hg (by simp) with ⟨hnone, hcomplete⟩ | ⟨f, hsome, hcaller, -⟩
    · rw [hnone] at hhead ⊢
      exact h.exit hcomplete hhead
    · rw [hsome] at hhead ⊢
      obtain rfl : f = .exitApplied := Option.some.inj hhead
      obtain ⟨w, c, hframes⟩ := h.report hcaller
      exact ⟨w, c, congrArg _ hframes⟩
  register r capacity hpc := absurd hpc (exec_not_register ho r capacity)
  heartbeat w c reported hpc := by
    cases exec_intake ho with
    | other _ later => cases (congrArg Pc.intake hpc).symm.trans later
    | heartbeat =>
      cases hpc
      rw [show frames = [] from htyped.stream_frames rfl]
      rfl
    | _ => cases hpc
  event c e hpc := by
    cases exec_intake ho with
    | other _ later => cases (congrArg Pc.intake hpc).symm.trans later
    | event inbound sender =>
      cases hpc
      rw [show frames = [] from htyped.stream_frames rfl, ← sender]
      exact ⟨rfl, hreason _ _ _ rfl inbound⟩
    | _ => cases hpc
  session j payload hpc := by
    cases exec_intake ho with
    | other _ later => cases (congrArg Pc.intake hpc).symm.trans later
    | accepted =>
      cases hpc
      exact (h.event _ _ rfl).2
    | _ => cases hpc

theorem Op.start_based {op : Op} (h : op.ofHandler = false) : op.start.Based := by
  cases op with
  | registerWorker => cases h
  | heartbeat => cases h
  | handleWorkerEvent => cases h
  | unregisterWorker => cases h
  | work r =>
    exact ⟨nofun, nofun, fun r' capacity hpc => by cases hpc; rfl, nofun, nofun, nofun⟩
  | _ =>
    refine .of_group fun g hg => ?_
    cases hg
    simp

theorem based_step (horderly : Orderly s) (h : ∀ t, (s.task t).Based)
    (hproper : s.isProper a = true) (hs : s.step env a = some s') (t : Tid) :
    (s'.task t).Based := by
  have hupdate : ∀ u (task : Task), task.Based → (update s.task u task t).Based := by
    intro u task htask
    by_cases hut : t = u
    · subst hut
      rwa [Function.update_self]
    · rw [Function.update_of_ne hut]
      exact h t
  cases State.step_cases hs with
  | start => exact hupdate _ _ (Op.start_based (by simpa [State.isProper] using hproper))
  | resume => exact hupdate _ _ (Frame.resume_based _ _ _)
  | exec ho =>
    refine hupdate _ _ ((h _).exec (horderly.typed _) (fun w c e hpc hchoice => ?_) ho)
    subst hchoice
    simpa only [State.isProper, hpc] using hproper
  | outside => exact h t

theorem based (h : ReachableWhen (system env) State.Handled s) (t : Tid) : (s.task t).Based := by
  refine h.invariant (I := fun s => ∀ t, (s.task t).Based) (fun t => ?_)
    (fun hr hi hc hs => based_step (Reachable.orderly hr.reachable) hi hc.1 hs) t
  cases t with
  | dispatcher => exact .of_group fun g hg => by cases hg; simp
  | task => exact .of_group fun g hg => by cases hg

/-! ### The connection of a handler -/

theorem Frame.base_workRegistered {g b : Group} {w : String} (h : Frame.base g frames = some b)
    (hlast : frames.getLast? = some (.workRegistered w)) :
    frames = [.workRegistered w] ∧ g = .register := by
  induction frames generalizing g with
  | nil => cases hlast
  | cons f frames ih =>
    cases frames with
    | nil =>
      obtain rfl : f = .workRegistered w := Option.some.inj hlast
      refine ⟨rfl, ?_⟩
      simp only [Frame.base] at h
      split at h
      · next hcallee => exact hcallee.symm
      · cases h
    | cons f' frames =>
      obtain ⟨-, hregister⟩ := ih (Frame.base_cons h) (by simpa using hlast)
      cases f <;> cases hregister

theorem stream_eq_none (h : pc.group ≠ some .stream) (h' : pc.group ≠ some .unregister) :
    Task.stream ⟨pc, []⟩ = none := by
  cases pc <;> first | rfl | exact absurd rfl h | exact absurd rfl h'

theorem exec_stream_none {g : Group} (hg : pc.group = some g) (hstream : g ≠ .stream)
    (ho : exec env t choice sh pc = some o) :
    Task.stream ⟨o.pc, o.frame.toList ++ []⟩ = none := by
  have hstack := (exec_continues ho).stack
  cases hframe : o.frame with
  | some f =>
    rw [hframe] at hstack
    have hcaller : f.caller = g := Option.some.inj (hstack.1.symm.trans hg)
    cases f <;> first | rfl | exact absurd hcaller.symm hstream
  | none =>
    rw [hframe] at hstack
    by_cases hunregister : g = .unregister
    · subst hunregister
      cases exec_branch ho <;> first | rfl | cases hg
    · refine stream_eq_none (fun hs => ?_) fun hs => ?_
      all_goals
        rcases hstack with hnone | hsame | ⟨hcaller, -⟩
        · cases hnone.symm.trans hs
        · have hgroup := Option.some.inj ((hsame.symm.trans hs).symm.trans hg)
          first | exact hstream hgroup.symm | exact hunregister hgroup.symm
        · exact hstream (Option.some.inj (hg.symm.trans hcaller))

/-- A step leaves the stream of its task alone, ends it or has just registered the worker. -/
theorem exec_stream (htyped : Task.WellTyped t ⟨pc, frames⟩)
    (ho : exec env t choice sh pc = some o) :
    Task.stream ⟨o.pc, o.frame.toList ++ frames⟩ = none ∨
      Task.stream ⟨o.pc, o.frame.toList ++ frames⟩ = Task.stream ⟨pc, frames⟩ ∨
      ∃ r capacity w c, pc = .registerWorker r capacity ∧ frames = [.workRegistered w] ∧
        o.pc = .registerWorkerNotify c ∧ o.frame = none := by
  obtain ⟨g, hg⟩ := Option.ne_none_iff_exists'.1 (exec_group ho)
  obtain ⟨b, hbase⟩ := htyped.of_group hg
  cases hlast : frames.getLast? with
  | some f =>
    have hlast' : (o.frame.toList ++ frames).getLast? = some f := by
      rw [List.getLast?_append, hlast]
      rfl
    cases f with
    | processWorkerStream w c => exact .inr (.inl (by simp only [Task.stream, hlast, hlast']))
    | workRegistered w =>
      obtain ⟨hframes, rfl⟩ := Frame.base_workRegistered hbase hlast
      dsimp only at hframes
      subst hframes
      rcases Pc.register_group hg with ⟨r, capacity, rfl⟩ | ⟨c, rfl⟩
      · obtain ⟨hframe, ⟨_, hdone⟩ | ⟨c, -, hnotify, -⟩⟩ := registerWorker_cases ho
        · left
          rw [hframe, hdone]
          rfl
        · exact .inr (.inr ⟨r, capacity, w, c, rfl, rfl, hnotify, hframe⟩)
      · cases ho
        exact .inr (.inl rfl)
    | _ => exact .inl (by simp only [Task.stream, hlast'])
  | none =>
    obtain rfl := List.getLast?_eq_none_iff.1 hlast
    by_cases hstream : g = .stream
    · subst hstream
      obtain ⟨w, c, rfl⟩ := Pc.stream_group hg
      right; left
      rcases processWorkerStream_cases ho with ⟨hframe, hpc | ⟨_, hpc⟩⟩ | hframe
      · rw [hframe, hpc]; rfl
      · rw [hframe, hpc]; rfl
      · rw [hframe]; rfl
    · exact .inl (exec_stream_none hg hstream ho)

theorem resume_stream {r : Ret} {f : Frame} (htyped : Task.WellTyped t ⟨.done r, f :: frames⟩) :
    Task.stream ⟨f.resume r, frames⟩ = none ∨
      Task.stream ⟨f.resume r, frames⟩ = Task.stream ⟨.done r, f :: frames⟩ := by
  obtain ⟨g, b, -, hbase, -⟩ := htyped
  cases frames with
  | cons f' frames =>
    cases hlast : (f' :: frames).getLast? with
    | none => cases List.getLast?_eq_none_iff.1 hlast
    | some last =>
      have hlast' : (f :: f' :: frames).getLast? = some last := by
        rw [List.getLast?_cons_cons, hlast]
      cases last with
      | processWorkerStream w c => exact .inr (by simp only [Task.stream, hlast, hlast'])
      | workRegistered w => cases (Frame.base_workRegistered hbase hlast').1
      | _ => exact .inl (by simp only [Task.stream, hlast])
  | nil =>
    cases f with
    | processWorkerStream w c =>
      right
      simp only [Frame.resume]
      split <;> rfl
    | workRegistered w => cases r <;> first | exact .inl rfl | exact .inr rfl
    | _ =>
      left
      simp only [Frame.resume]
      repeat' split
      all_goals rfl

theorem Op.start_stream {op : Op} (h : op.ofHandler = false) : op.start.stream = none := by
  cases op <;> first | rfl | cases h

theorem exec_registered {w : String} {hd : WorkerHandle} (hw : sh.workers.lookup w = some hd)
    (ho : exec env t choice sh pc = some o) :
    (∃ hd', o.shared.workers.lookup w = some hd' ∧ hd'.connectionId = hd.connectionId) ∨
      ∃ detail, pc = .unregisterWorker w hd.connectionId detail := by
  have hfound : ∃ x, sh.workers.lookup w = some x ∧ x.connectionId = hd.connectionId :=
    ⟨hd, hw, rfl⟩
  cases exec_traffic ho with
  | quiet workers => exact .inl (workers ▸ hfound)
  | named => exact .inl hfound
  | found => exact .inl hfound
  | sent => exact .inl hfound
  | @registered r capacity c fresh free =>
    have hne : w ≠ r.workerId := by
      rintro rfl
      cases free.symm.trans hw
    exact .inl ⟨hd, (AList.lookup_insert_ne hne).trans hw, rfl⟩
  | seen worker => exact .inl (insert_leadsTo rfl worker rfl hfound)
  | freed worker => exact .inl (insert_leadsTo rfl worker rfl hfound)
  | @lost w' c detail hd' worker connection =>
    by_cases hww : w = w'
    · subst hww
      obtain rfl := Option.some.inj (hw.symm.trans worker)
      exact .inr ⟨detail, by rw [connection]⟩
    · exact .inl ⟨hd, (AList.lookup_erase_ne hww).trans hw, rfl⟩
  | assigned room worker => exact .inl (insert_leadsTo rfl worker rfl hfound)

/-- The worker of a handler is registered with the handler's connection, and no other task
handles that one. -/
structure Served (s : State) : Prop where
  registered : ∀ t w c, (s.task t).stream = some (w, c) →
    ∃ hd, s.shared.workers.lookup w = some hd ∧ hd.connectionId = c
  unique : ∀ t u w w' c, (s.task t).stream = some (w, c) → (s.task u).stream = some (w', c) → t = u

theorem Served.keep (h : Served s) (hworkers : s'.shared.workers = s.shared.workers)
    (hstream : ∀ t, (s'.task t).stream = none ∨ (s'.task t).stream = (s.task t).stream) :
    Served s' := by
  have hback : ∀ {t x}, (s'.task t).stream = some x → (s.task t).stream = some x := by
    intro t x ht
    rcases hstream t with hnone | hsame
    · cases hnone.symm.trans ht
    · exact hsame.symm.trans ht
  exact ⟨fun t w c ht => hworkers ▸ h.registered t w c (hback ht),
    fun t u w w' c ht hu => h.unique t u w w' c (hback ht) (hback hu)⟩

theorem stream_update {task : Task}
    (h : task.stream = none ∨ task.stream = (s.task t).stream) (u : Tid) :
    (update s.task t task u).stream = none ∨
      (update s.task t task u).stream = (s.task u).stream := by
  by_cases hut : u = t
  · subst hut
    rwa [Function.update_self]
  · exact .inr (by rw [Function.update_of_ne hut])

theorem stream_of_unregister {w : String} {hd : WorkerHandle} {detail : String}
    (hkeeps : s.keepsWorkers (.run t choice) = true) (hw : s.shared.workers.lookup w = some hd)
    (hpc : (s.task t).pc = .unregisterWorker w hd.connectionId detail) :
    (s.task t).frames = [] ∧ (s.task t).stream = some (w, hd.connectionId) := by
  have hframes : (s.task t).frames = [] := by
    simpa [State.keepsWorkers, hpc, hw] using hkeeps
  exact ⟨hframes, by simp only [Task.stream, hframes, hpc, List.getLast?_nil]⟩

theorem Served.exec_keep (h : Served s) (hkeeps : s.keepsWorkers (.run t choice) = true)
    (ho : exec env t choice s.shared (s.task t).pc = some o)
    (hstream : Task.stream ⟨o.pc, o.frame.toList ++ (s.task t).frames⟩ = none ∨
      Task.stream ⟨o.pc, o.frame.toList ++ (s.task t).frames⟩ = (s.task t).stream) :
    Served ⟨o.shared, update s.task t ⟨o.pc, o.frame.toList ++ (s.task t).frames⟩⟩ := by
  have hback : ∀ {u x}, (update s.task t ⟨o.pc, o.frame.toList ++ (s.task t).frames⟩ u).stream =
      some x → (s.task u).stream = some x := by
    intro u x hu
    rcases stream_update hstream u with hnone | hsame
    · cases hnone.symm.trans hu
    · exact hsame.symm.trans hu
  refine ⟨fun u w c hu => ?_, fun u v w w' c hu hv => h.unique u v w w' c (hback hu) (hback hv)⟩
  obtain ⟨hd, hw, rfl⟩ := h.registered u w c (hback hu)
  refine (exec_registered hw ho).resolve_right ?_
  rintro ⟨detail, hpc⟩
  obtain ⟨hframes, hstreamt⟩ := stream_of_unregister hkeeps hw hpc
  obtain rfl := h.unique u t w w _ (hback hu) hstreamt
  have hgroup : (s.task u).pc.group = some .unregister := by rw [hpc]; rfl
  dsimp only at hu
  rw [Function.update_self, hframes, exec_stream_none hgroup (by simp) ho] at hu
  cases hu

theorem Served.exec_register (h : Served s) (hwired : Wired s.shared.ledger)
    (hbased : (s.task t).Based) {r : WorkerRegistration} {capacity : Nat} {w : String} {c : Uuid}
    (hpc : (s.task t).pc = .registerWorker r capacity)
    (hframes : (s.task t).frames = [.workRegistered w]) (hnotify : o.pc = .registerWorkerNotify c)
    (hframe : o.frame = none) (ho : exec env t choice s.shared (s.task t).pc = some o) :
    Served ⟨o.shared, update s.task t ⟨o.pc, o.frame.toList ++ (s.task t).frames⟩⟩ := by
  obtain rfl : w = r.workerId := by
    have hbase := hframes.symm.trans (hbased.register r capacity hpc)
    exact Frame.workRegistered.inj (List.cons.inj hbase).1
  have hregister : registerWorker env choice s.shared r capacity = some o := by
    rw [hpc] at ho
    exact ho
  obtain ⟨-, ⟨_, hdone⟩ | ⟨c', fresh, hnotify', hd, hw, hc⟩⟩ := registerWorker_cases hregister
  · cases hnotify.symm.trans hdone
  obtain rfl : c = c' := Pc.registerWorkerNotify.inj (hnotify.symm.trans hnotify')
  have hstream : Task.stream ⟨o.pc, o.frame.toList ++ (s.task t).frames⟩ = some (r.workerId, c) := by
    rw [hnotify, hframe, hframes]
    rfl
  have hcases : ∀ {u x}, (update s.task t ⟨o.pc, o.frame.toList ++ (s.task t).frames⟩ u).stream =
      some x → u = t ∧ x = (r.workerId, c) ∨ (s.task u).stream = some x ∧ x.2 ≠ c := by
    intro u x hu
    by_cases hut : u = t
    · subst hut
      rw [Function.update_self, hstream] at hu
      exact .inl ⟨rfl, (Option.some.inj hu).symm⟩
    · rw [Function.update_of_ne hut] at hu
      refine .inr ⟨hu, ?_⟩
      obtain ⟨hd', hw', hc'⟩ := h.registered u x.1 x.2 hu
      rintro rfl
      exact fresh (hc' ▸ hwired.known x.1 hd'.handle (by simp [Shared.ledger, hw']))
  refine ⟨fun u w c' hu => ?_, fun u v w w' c' hu hv => ?_⟩
  · rcases hcases hu with ⟨-, heq⟩ | ⟨hold, -⟩
    · cases heq
      exact ⟨hd, hw, hc⟩
    · obtain ⟨hd', hw', rfl⟩ := h.registered u w c' hold
      refine (exec_registered hw' ho).resolve_right ?_
      rintro ⟨detail, hunregister⟩
      cases hpc.symm.trans hunregister
  · rcases hcases hu with ⟨rfl, heq⟩ | ⟨hu, hne⟩ <;> rcases hcases hv with ⟨rfl, heq'⟩ | ⟨hv, hne'⟩
    · rfl
    · exact absurd (congrArg Prod.snd heq) hne'
    · exact absurd (congrArg Prod.snd heq') hne
    · exact h.unique u v w w' c' hu hv

theorem Served.step (hr : Reachable env s) (h : Served s) (hbased : ∀ t, (s.task t).Based)
    (hc : s.Handled a) (hs : s.step env a = some s') : Served s' := by
  obtain ⟨hproper, hkeeps, -⟩ := hc
  have htyped := (Reachable.orderly hr).typed
  cases State.step_cases hs with
  | start =>
    exact h.keep rfl (stream_update (.inl (Op.start_stream (by simpa [State.isProper] using hproper))))
  | @resume t choice r f frames at_ =>
    refine h.keep rfl (stream_update ?_)
    rw [at_]
    exact resume_stream (at_ ▸ htyped t)
  | @exec t choice o ho =>
    rcases exec_stream (htyped t) ho with hnone | hsame |
      ⟨r, capacity, w, c, hpc, hframes, hnotify, hframe⟩
    · exact h.exec_keep hkeeps ho (.inl hnone)
    · exact h.exec_keep hkeeps ho (.inr hsame)
    · exact h.exec_register (wired (Reachable.overview hr)) (hbased t) hpc hframes hnotify hframe ho
  | outside ho => exact h.keep (by cases ho <;> rfl) fun t => .inr rfl

theorem served (h : ReachableWhen (system env) State.Handled s) : Served s := by
  refine h.invariant ⟨fun t w c ht => ?_, fun t u w w' c ht _ => ?_⟩
    fun hr hi hc hs => hi.step hr.reachable (based hr) hc hs
  all_goals cases t <;> cases ht

/-! ### Events -/

def Task.quits : Task → Bool
  | ⟨.unregisterWorker .., []⟩ | ⟨.done (.status ⟨.failedPrecondition, _⟩), [_]⟩ => true
  | _ => false

theorem exec_quits (h : Task.quits ⟨pc, frames⟩ = true) (ho : exec env t choice sh pc = some o) :
    Task.stream ⟨o.pc, o.frame.toList ++ frames⟩ = none := by
  unfold Task.quits at h
  split at h
  · next heq =>
    obtain ⟨rfl, rfl⟩ := Task.mk.inj heq
    exact exec_stream_none (g := .unregister) rfl (by simp) ho
  · next heq =>
    obtain ⟨rfl, rfl⟩ := Task.mk.inj heq
    cases ho
  · cases h

theorem resume_quits {r : Ret} {f : Frame} (h : Task.quits ⟨.done r, f :: frames⟩ = true) :
    Task.stream ⟨f.resume r, frames⟩ = none ∨ Task.quits ⟨f.resume r, frames⟩ = true := by
  unfold Task.quits at h
  split at h
  · next heq => cases heq
  · next heq =>
    cases heq
    cases f
    case processWorkerStream => exact .inr rfl
    all_goals exact .inl rfl
  · cases h

theorem exec_accepted {c : Uuid} {e : JobEvent} (he : e ∈ sh.accepted c)
    (ho : exec env t choice sh pc = some o) : e ∈ o.shared.accepted c := by
  cases exec_intake ho with
  | other accepted => exact accepted ▸ he
  | @accepted c' e' j hd =>
    by_cases hc : c = c'
    · subst hc
      simp only [Function.update_self]
      exact List.mem_append_left _ he
    · simp only [Function.update_of_ne hc]
      exact he
  | _ => exact he

theorem handleWorkerEvent_cases {c : Uuid} {e : JobEvent} (hjob : e.jobId.parse.isSome = true)
    (h : handleWorkerEvent sh c e = some o) :
    e ∈ o.shared.accepted c ∨
      o.frame = none ∧ ∃ message, o.pc = .done (.status ⟨.failedPrecondition, message⟩) := by
  simp only [handleWorkerEvent, goto, refuse] at h
  repeat' split at h
  all_goals cases h
  · next hnone => cases (congrArg Option.isSome hnone).symm.trans hjob
  iterate 3 exact .inr ⟨rfl, _, rfl⟩
  exact .inl (by simp)

def Task.Serves (task : Task) (w : String) (c : Uuid) : Prop :=
  task.stream = some (w, c) ∧ task.quits = false

def State.Has (s : State) (t : Tid) (c : Uuid) (e : JobEvent) : Prop :=
  e ∈ s.shared.accepted c ∨ (s.task t).pc = .handleWorkerEvent c e

theorem exec_has {c : Uuid} {e : JobEvent} (ht : s.task t = ⟨pc, frames⟩)
    (hbased : Task.Based ⟨pc, frames⟩) (hjob : e.jobId.parse.isSome = true)
    (hquits : Task.quits ⟨o.pc, o.frame.toList ++ frames⟩ = false) (h : s.Has t c e)
    (ho : exec env t choice s.shared pc = some o) : e ∈ o.shared.accepted c := by
  rcases h with haccepted | hpc
  · exact exec_accepted haccepted ho
  · obtain rfl : pc = .handleWorkerEvent c e := by rw [ht] at hpc; exact hpc
    rcases handleWorkerEvent_cases hjob ho with haccepted | ⟨hframe, message, hdone⟩
    · exact haccepted
    · rw [hdone, hframe, show frames = _ from (hbased.event c e rfl).1] at hquits
      cases hquits

theorem serves_step (hr : ReachableWhen (system env) State.Handled s) (hproper : s.isProper a = true)
    (hs : s.step env a = some s') {w : String} {c : Uuid} (h : (s'.task t).Serves w c) :
    c ∉ s.shared.connections ∨ (s.task t).Serves w c ∧
      ∀ e : JobEvent, e.jobId.parse.isSome = true → s.Has t c e → s'.Has t c e := by
  have htyped := (Reachable.orderly hr.reachable).typed
  obtain ⟨hstream, hquits⟩ := h
  have hkeep (htask : s'.task t = s.task t)
      (haccepted : ∀ e ∈ s.shared.accepted c, e ∈ s'.shared.accepted c) :
      (s.task t).Serves w c ∧
        ∀ e : JobEvent, e.jobId.parse.isSome = true → s.Has t c e → s'.Has t c e := by
    refine ⟨⟨htask ▸ hstream, htask ▸ hquits⟩, fun e _ he => ?_⟩
    rw [State.Has, htask]
    exact he.imp_left (haccepted e)
  -- whoever serves the connection has done so before, or has just registered it
  cases State.step_cases hs with
  | @start n op =>
    by_cases htn : t = .task n
    · subst htn
      simp only [State.setTask, Function.update_self] at hstream
      rw [Op.start_stream (by simpa [State.isProper] using hproper)] at hstream
      cases hstream
    · exact .inr (hkeep (Function.update_of_ne htn _ _) fun e he => he)
  | @resume u choice r f frames at_ =>
    by_cases htu : t = u
    · subst htu
      simp only [State.setTask, Function.update_self] at hstream hquits
      refine .inr ⟨⟨?_, ?_⟩, fun e _ he => ?_⟩
      · rcases resume_stream (at_ ▸ htyped t) with hnone | hsame
        · cases hnone.symm.trans hstream
        · rw [at_]
          exact hsame.symm.trans hstream
      · rw [Bool.eq_false_iff]
        intro hold
        rcases resume_quits (at_ ▸ hold) with hnone | hquits'
        · cases hnone.symm.trans hstream
        · cases hquits.symm.trans hquits'
      · refine .inl (he.resolve_right fun hpc => ?_)
        rw [at_] at hpc
        cases hpc
    · exact .inr (hkeep (Function.update_of_ne htu _ _) fun e he => he)
  | @exec u choice o ho =>
    by_cases htu : t = u
    · subst htu
      simp only [Function.update_self] at hstream hquits
      rcases exec_stream (htyped t) ho with hnone | hsame |
        ⟨r, capacity, w', c', hpc, hframes, hnotify, hframe⟩
      · cases hnone.symm.trans hstream
      · refine .inr ⟨⟨hsame.symm.trans hstream, ?_⟩, fun e he hold => ?_⟩
        · rw [Bool.eq_false_iff]
          intro hold
          cases (exec_quits hold ho).symm.trans hstream
        · exact .inl (exec_has rfl (based hr t) he hquits hold ho)
      · rw [hpc] at ho
        obtain ⟨-, ⟨_, hdone⟩ | ⟨c'', fresh, hnotify', -⟩⟩ := registerWorker_cases ho
        · cases hnotify.symm.trans hdone
        · rw [hnotify', hframe, hframes] at hstream
          cases hstream
          exact .inl fresh
    · exact .inr (hkeep (Function.update_of_ne htu _ _) fun e he => exec_accepted he ho)
  | outside ho => exact .inr (hkeep rfl fun e he => by cases ho <;> exact he)

/-! ### Exits -/

def Task.Answers (task : Task) (w : String) (c : Uuid) : Prop :=
  task.frames.getLast? = some (.processWorkerStream w c)

theorem Task.Answers.stream {task : Task} {w : String} {c : Uuid} (h : task.Answers w c) :
    task.stream = some (w, c) := by
  simp only [Task.stream, show task.frames.getLast? = _ from h]

theorem Task.Answers.exec {task : Task} {w : String} {c : Uuid} (h : task.Answers w c) :
    Task.Answers ⟨o.pc, o.frame.toList ++ task.frames⟩ w c := by
  rw [Task.Answers, List.getLast?_append, show task.frames.getLast? = _ from h]
  rfl

theorem Task.reports_cases {task : Task} {j : Uuid} (h : task.role.reports = some j) :
    (∃ code signal reason, task.pc = .handleWorkerEventSession j (some (.exit code signal reason))) ∨
      ∃ e, task.pc = .completeSession j e .finish ∧ task.frames.head? = some .exitApplied := by
  obtain ⟨pc, frames⟩ := task
  cases pc with
  | handleWorkerEventSession k payload =>
    rcases payload with _ | _ | _ | _ | ⟨code, signal, reason⟩ | _
    all_goals simp only [Task.role, Pc.role, Role.reports, reduceCtorEq, Option.some.injEq] at h
    subst h
    exact .inl ⟨code, signal, reason, rfl⟩
  | completeSession k e stage =>
    cases stage
    case finish =>
      right
      rcases frames with _ | ⟨f, frames⟩
      · cases h
      · cases f
        case exitApplied =>
          obtain rfl := Option.some.inj h
          exact ⟨e, rfl, rfl⟩
        all_goals cases h
    all_goals cases h
  | done r =>
    rcases frames with _ | ⟨f, frames⟩
    · cases h
    · cases f <;> cases h
  | unregisterWorkerCount job detail => cases job <;> cases h
  | _ => cases h

theorem exec_current {w : String} {hd' : WorkerHandle} {j : Uuid}
    (ho : exec env t choice sh pc = some o) (hw : o.shared.workers.lookup w = some hd')
    (hj : hd'.currentJob = some j) :
    (∃ hd, sh.workers.lookup w = some hd ∧ hd.currentJob = some j ∧
      hd.connectionId = hd'.connectionId) ∨ pc = .dispatchWorkers j := by
  have hinsert : ∀ {v : String} {x x' : WorkerHandle}, sh.workers.lookup v = some x →
      (sh.workers.insert v x').lookup w = some hd' → x'.connectionId = x.connectionId →
      (x'.currentJob = x.currentJob ∨ x'.currentJob ≠ some j) →
      ∃ hd, sh.workers.lookup w = some hd ∧ hd.currentJob = some j ∧
        hd.connectionId = hd'.connectionId := by
    intro v x x' hx hw hconnection hcurrent
    by_cases hwv : w = v
    · subst hwv
      obtain rfl := Option.some.inj ((AList.lookup_insert _).symm.trans hw)
      exact ⟨x, hx, (hcurrent.resolve_right fun hne => hne hj) ▸ hj, hconnection.symm⟩
    · exact ⟨hd', (AList.lookup_insert_ne hwv).symm.trans hw, hj, rfl⟩
  cases exec_traffic ho with
  | quiet workers => exact .inl ⟨hd', workers ▸ hw, hj, rfl⟩
  | named => exact .inl ⟨hd', hw, hj, rfl⟩
  | found => exact .inl ⟨hd', hw, hj, rfl⟩
  | sent => exact .inl ⟨hd', hw, hj, rfl⟩
  | @registered r capacity c fresh free =>
    by_cases hwr : w = r.workerId
    · subst hwr
      obtain rfl := Option.some.inj ((AList.lookup_insert _).symm.trans hw)
      cases hj
    · exact .inl ⟨hd', (AList.lookup_insert_ne hwr).symm.trans hw, hj, rfl⟩
  | seen worker => exact .inl (hinsert worker hw rfl (.inl rfl))
  | freed worker current => exact .inl (hinsert worker hw rfl (.inr (by simp)))
  | @lost v c detail x worker connection =>
    by_cases hwv : w = v
    · subst hwv
      cases (AList.lookup_erase w _).symm.trans hw
    · exact .inl ⟨hd', (AList.lookup_erase_ne hwv).symm.trans hw, hj, rfl⟩
  | @assigned i v x ch room worker idle sent =>
    by_cases hij : i = j
    · exact .inr (by rw [hij])
    · exact .inl (hinsert worker hw rfl (.inr fun hi => hij (Option.some.inj hi)))

theorem Exited.of_append {accepted : Uuid → List JobEvent} {c c' j : Uuid} {e : JobEvent}
    (h : Exited (update accepted c' (accepted c' ++ [e])) c j) :
    Exited accepted c j ∨ c = c' ∧ e.exited = some j := by
  obtain ⟨x, hx, hj⟩ := h
  by_cases hc : c = c'
  · subst hc
    rw [Function.update_self] at hx
    rcases List.mem_append.1 hx with hx | hx
    · exact .inl ⟨x, hx, hj⟩
    · exact .inr ⟨rfl, List.mem_singleton.1 hx ▸ hj⟩
  · rw [Function.update_of_ne hc] at hx
    exact .inl ⟨x, hx, hj⟩

/-- An exit is accepted only on the connection on which the job was assigned. -/
theorem exited_assigned {config : AppConfig} {D : Overview → Tid → Prop} {v : Overview} {c j : Uuid}
    (h : ReachableWhen (ledgerSystem config) D v) (hj : Exited v.ledger.accepted c j) :
    j ∈ v.ledger.assigned c := by
  refine ledger_invariant (I := fun L _ => ∀ c j, Exited L.accepted c j → j ∈ L.assigned c) h
    (fun c j ⟨e, he, _⟩ => by cases he) (fun hr _ hi ht hm c j hj => ?_) c j hj
  obtain ⟨place, hp⟩ := placed hr
  cases hm
  case report w hd e worker goesOn =>
    rcases hj.of_append with hj | ⟨-, hexited⟩
    · exact hi c j hj
    · cases goesOn.symm.trans hexited
  case reportExit w hd e k worker current exited =>
    rcases hj.of_append with hj | ⟨rfl, hexited⟩
    · exact hi c j hj
    · obtain rfl := Option.some.inj (exited.symm.trans hexited)
      exact hp.mem_assigned.2 (hp.current w hd k worker current)
  case register w c' fresh free => have := (wired hr).fresh c' fresh; grind
  case assign => grind
  all_goals exact hi c j hj

theorem completeSession_not_finish {j k : Uuid} {e e' : Completion} {stage : CompleteAt}
    (ho : exec env t choice sh (.completeSession j e stage) = some o) :
    o.pc ≠ .completeSession k e' .finish := by
  intro hpc
  cases exec_branch ho <;> cases hpc

theorem exec_exitApplied (ho : exec env t choice sh pc = some o)
    (hframe : o.frame = some .exitApplied) :
    ∃ j code signal reason e, pc = .handleWorkerEventSession j (some (.exit code signal reason)) ∧
      o.pc = .completeSession j e .finish := by
  cases exec_branch ho <;> first | exact ⟨_, _, _, _, _, rfl, rfl⟩ | cases hframe

/-- A worker whose job has exited is about to be freed by its handler. -/
structure Exiting (s : State) : Prop where
  assigned : ∀ t j w c, (s.task t).role.reports = some j → (s.task t).Answers w c →
    j ∈ (s.shared.channel c).assignedJobs
  freed : ∀ t j w hd, (s.task t).role.frees = some (j, w) → s.shared.workers.lookup w = some hd →
    hd.currentJob = some j → (s.task t).Answers w hd.connectionId
  exited : ∀ w hd j, s.shared.workers.lookup w = some hd → hd.currentJob = some j →
    Exited s.shared.accepted hd.connectionId j → (s.shared.inner j).finished = false →
    ∃ t, (s.task t).role.reports = some j ∧ (s.task t).Answers w hd.connectionId

theorem ledger_lookup {w : String} {hd : WorkerHandle} (hw : s.shared.workers.lookup w = some hd) :
    s.overview.ledger.workers w = some hd.handle := by
  simp [State.overview, Shared.ledger, hw]

theorem mem_assignedJobs_of_current (hr : Reachable env s) {w : String} {hd : WorkerHandle}
    {j : Uuid} (hw : s.shared.workers.lookup w = some hd) (hj : hd.currentJob = some j) :
    j ∈ (s.shared.channel hd.connectionId).assignedJobs := by
  obtain ⟨place, hp⟩ := placed (Reachable.overview hr)
  exact hp.mem_assigned.2 (hp.current w hd.handle j (ledger_lookup hw) hj)

theorem Exiting.exec_assigned (h : Exiting s) (hr : Reachable env s) (ht : s.task t = ⟨pc, frames⟩)
    (hbased : Task.Based ⟨pc, frames⟩)
    (hmono : ∀ c j, j ∈ (s.shared.channel c).assignedJobs → j ∈ (o.shared.channel c).assignedJobs)
    (ho : exec env t choice s.shared pc = some o) {j : Uuid} {w : String} {c : Uuid}
    (hj : (Task.mk o.pc (o.frame.toList ++ frames)).role.reports = some j)
    (hw : Task.Answers ⟨o.pc, o.frame.toList ++ frames⟩ w c) :
    j ∈ (o.shared.channel c).assignedJobs := by
  refine hmono c j ?_
  rcases Task.reports_cases hj with ⟨code, signal, reason, hpc⟩ | ⟨e, hpc, hhead⟩
  · cases exec_intake ho with
    | other _ later => cases (congrArg Pc.intake hpc).symm.trans later
    | @accepted c' e i hd job worker connection current =>
      obtain ⟨rfl, -⟩ := Pc.handleWorkerEventSession.inj hpc
      obtain rfl : frames = [.processWorkerStream e.workerId c'] := (hbased.event c' e rfl).1
      obtain ⟨-, rfl⟩ := Frame.processWorkerStream.inj (Option.some.inj hw)
      exact connection ▸ mem_assignedJobs_of_current hr worker current
    | _ => cases hpc
  · have hgroup : o.pc.group = some .complete := by rw [show o.pc = _ from hpc]; rfl
    rcases exec_caller ho hgroup (by simp) with ⟨-, hcomplete⟩ | ⟨f, hframe, hreport, -⟩
    · obtain ⟨i, e', stage, rfl⟩ : ∃ i e' stage, pc = .completeSession i e' stage := by
        cases pc <;> first | exact ⟨_, _, _, rfl⟩ | cases hcomplete
      exact absurd hpc (completeSession_not_finish ho)
    · rw [hframe] at hhead hw
      obtain rfl : f = .exitApplied := Option.some.inj hhead
      obtain ⟨i, code, signal, reason, e', rfl, hpc'⟩ := exec_exitApplied ho hframe
      obtain ⟨rfl, -⟩ := Pc.completeSession.inj (hpc.symm.trans hpc')
      obtain ⟨w', c', rfl⟩ := hbased.report rfl
      obtain ⟨rfl, rfl⟩ := Frame.processWorkerStream.inj (Option.some.inj hw)
      exact h.assigned t j w' c' (by rw [ht]; rfl) (by rw [ht]; rfl)

theorem reachable_cancels (h : ReachableWhen (system env) State.Handled s) :
    ReachableWhen (ledgerSystem env.config) CancelsUnassigned s.overview :=
  reachable_overview (fun _ _ _ hc => State.cancelsUnassigned_overview hc.2.2) h

/-- Whoever finishes a session that a worker has is the handler of that worker. -/
theorem Exiting.answers_of_finish (h : Exiting s)
    (hr : ReachableWhen (system env) State.Handled s) (hc : s.Handled (.run t choice))
    {cause : Cause} {j : Uuid} {w : String} {hd : WorkerHandle}
    (hrole : (s.task t).role = .ending cause j) (hlive : (s.shared.inner j).finished = false)
    (hassigned : (s.shared.inner j).assignedWorker = some w)
    (hw : s.shared.workers.lookup w = some hd) (hj : hd.currentJob = some j) :
    (s.task t).Answers w hd.connectionId := by
  cases cause with
  | stopped =>
    have hnone : (s.shared.inner j).assignedWorker = none :=
      State.cancelsUnassigned_overview hc.2.2 j hrole hlive
    cases hnone.symm.trans hassigned
  | lost =>
    have hlost := (closed (reachable_cancels hr)).lost t j (by
      rw [show s.overview.role t = _ from hrole]
      rfl)
    exact absurd ⟨w, hd.handle, ledger_lookup hw, hj⟩ hlost.2
  | exited =>
    have hreports : (s.task t).role.reports = some j := by rw [hrole]; rfl
    obtain ⟨w', c', hanswers⟩ : ∃ w' c', (s.task t).Answers w' c' := by
      rcases Task.reports_cases hreports with ⟨_, _, _, hpc⟩ | ⟨e, hpc, hhead⟩
      · obtain ⟨w', c', hframes⟩ := (based hr t).report (by rw [hpc]; rfl)
        exact ⟨w', c', by rw [Task.Answers, hframes]; rfl⟩
      · obtain ⟨w', c', hframes⟩ := (based hr t).exit (by rw [hpc]; rfl) hhead
        exact ⟨w', c', by rw [Task.Answers, hframes]; rfl⟩
    obtain ⟨hd', hw', rfl⟩ := (served hr).registered t w' c' hanswers.stream
    -- The job was assigned on the connection of the handler and on that of the worker.
    obtain ⟨place, hp⟩ := placed (Reachable.overview hr.reachable)
    have hplace := hp.mem_assigned.1 (h.assigned t j w' _ hreports hanswers)
    have hplace' := hp.mem_assigned.1 (mem_assignedJobs_of_current hr.reachable hw hj)
    have hconnection := Place.assigned.inj (hplace.symm.trans hplace')
    obtain rfl := (wired (Reachable.overview hr.reachable)).distinct w' w _ _ (ledger_lookup hw')
      (ledger_lookup hw) hconnection
    exact hconnection ▸ hanswers

theorem Exiting.exec_freed (h : Exiting s) (hr : ReachableWhen (system env) State.Handled s)
    (hc : s.Handled (.run t choice))
    (ho : exec env t choice s.shared (s.task t).pc = some o) {j : Uuid} {w : String}
    {hd : WorkerHandle}
    (hfrees : (Task.mk o.pc (o.frame.toList ++ (s.task t).frames)).role.frees = some (j, w))
    (hw : o.shared.workers.lookup w = some hd) (hj : hd.currentJob = some j) :
    Task.Answers ⟨o.pc, o.frame.toList ++ (s.task t).frames⟩ w hd.connectionId := by
  refine Task.Answers.exec ?_
  -- the worker had the job before, or the dispatcher gives it in this step
  rcases exec_current ho hw hj with ⟨hd₀, hw₀, hj₀, hconnection⟩ | hdispatch
  · have hold : (s.task t).role.frees = some (j, w) → (s.task t).Answers w hd.connectionId :=
      fun hfrees => hconnection ▸ h.freed t j w hd₀ hfrees hw₀ hj₀
    have hself : ∀ role : Tid → Role, role =
        (State.overview ⟨o.shared, update s.task t ⟨o.pc, o.frame.toList ++ (s.task t).frames⟩⟩).role →
        (role t).frees = some (j, w) := by
      rintro _ rfl
      simp only [State.overview, Function.update_self]
      exact hfrees
    rcases State.exec_overview (Reachable.orderly hr.reachable) ho with heq | ⟨r', hm, hrole⟩
    · exact hold (hself s.overview.role (by rw [heq]))
    · have hr' : r'.frees = some (j, w) := by
        have := hself _ hrole.symm
        rwa [Function.update_self] at this
      generalize hL : s.overview.ledger = L at hm
      generalize hrl : s.overview.role t = r at hm
      generalize (State.overview _).ledger = L' at hm
      cases hm
      -- the worker's name is taken out of the session by the step that finishes it
      case finish cause k free live =>
        obtain ⟨w', hassigned, heq⟩ := Option.map_eq_some_iff.1 hr'
        obtain ⟨rfl, rfl⟩ := Prod.mk.inj heq
        subst hL
        exact hconnection ▸ h.answers_of_finish hr hc hrl live hassigned hw₀ hj₀
      case sendPhase | sendExit | keepLimits | release | settle =>
        exact hold ((congrArg Role.frees hrl).trans hr')
      all_goals cases hr'
  · obtain ⟨stage, hcompleting⟩ := Role.completing_of_frees hfrees
    obtain ⟨-, e, hpc⟩ := Pc.completing_iff.1 hcompleting
    have hgroup : o.pc.group = some .complete := by rw [show o.pc = _ from hpc]; rfl
    rcases exec_caller ho hgroup (by simp) with ⟨-, hcomplete⟩ | ⟨f, -, hcaller, hcallee⟩
    · rw [hdispatch] at hcomplete
      cases hcomplete
    · rw [hdispatch] at hcaller
      cases f
      case dispatchLoop => cases hcallee
      all_goals cases hcaller

/-- The job that the dispatcher assigns is live and was never assigned before. -/
theorem dispatched_is_new (hr : Reachable env s) {j : Uuid}
    (hpc : (s.task t).pc = .dispatchWorkers j) :
    (s.shared.inner j).finished = false ∧ ∀ c, j ∉ (s.shared.channel c).assignedJobs := by
  have hrole : s.overview.role t = .assigning j := by
    simp only [State.overview, Task.role, hpc, Pc.role]
  refine ⟨(locked (Reachable.overview hr)).live t j (by rw [hrole]; rfl), fun c hj => ?_⟩
  obtain ⟨place, hp⟩ := placed (Reachable.overview hr)
  have hheld := (hp.held t j).1 (by rw [hrole]; rfl)
  cases hheld.symm.trans (hp.mem_assigned.1 hj)

theorem reports_exec (hr : ReachableWhen (system env) State.Handled s) {j : Uuid}
    (ho : exec env t choice s.shared (s.task t).pc = some o)
    (hreports : (s.task t).role.reports = some j) (hcreated : j ∈ s.shared.created)
    (hlive : (s.shared.inner j).finished = false) (hlive' : (o.shared.inner j).finished = false) :
    (Task.mk o.pc (o.frame.toList ++ (s.task t).frames)).role.reports = some j := by
  have hsession : j ∈ s.shared.sessions := by
    by_contra hgone
    have hfinished : (s.shared.inner j).finished = true :=
      gone_finished (Reachable.overview hr.reachable) hgone hcreated
    cases hlive.symm.trans hfinished
  rcases Task.reports_cases hreports with ⟨code, signal, reason, hpc⟩ | ⟨e, hpc, hhead⟩
  · have hreason := (based hr t).session _ _ hpc
    rw [hpc] at ho
    simp only [exec, handleWorkerEventSession, hsession, not_true_eq_false, if_false] at ho
    split at ho
    · next hnone => simp [hasExitReason, hnone] at hreason
    · cases ho
      rfl
  · rw [hpc] at ho
    simp only [exec, completeSession, hlive, goto] at ho
    split at ho
    · cases ho
    · cases ho
      simp [Shared.setInner] at hlive'

theorem Exiting.exec_exited (h : Exiting s) (hr : ReachableWhen (system env) State.Handled s)
    (ho : exec env t choice s.shared (s.task t).pc = some o)
    (hmono : ∀ j, (s.shared.inner j).finished = true → (o.shared.inner j).finished = true)
    {w : String} {hd : WorkerHandle} {j : Uuid} (hw : o.shared.workers.lookup w = some hd)
    (hj : hd.currentJob = some j) (he : Exited o.shared.accepted hd.connectionId j)
    (hlive : (o.shared.inner j).finished = false) :
    ∃ u, (update s.task t ⟨o.pc, o.frame.toList ++ (s.task t).frames⟩ u).role.reports = some j ∧
      (update s.task t ⟨o.pc, o.frame.toList ++ (s.task t).frames⟩ u).Answers w hd.connectionId := by
  have hlive₀ : (s.shared.inner j).finished = false := by
    by_contra hfinished
    cases hlive.symm.trans (hmono j (by simpa using hfinished))
  -- an exit that was accepted before still has its task
  have hold : Exited s.shared.accepted hd.connectionId j →
      ∃ u, (update s.task t ⟨o.pc, o.frame.toList ++ (s.task t).frames⟩ u).role.reports = some j ∧
        (update s.task t ⟨o.pc, o.frame.toList ++ (s.task t).frames⟩ u).Answers w
          hd.connectionId := by
    intro he
    rcases exec_current ho hw hj with ⟨hd₀, hw₀, hj₀, hconnection⟩ | hdispatch
    · rw [← hconnection] at he ⊢
      obtain ⟨u, hreports, hanswers⟩ := h.exited w hd₀ j hw₀ hj₀ he hlive₀
      refine ⟨u, ?_⟩
      by_cases hut : u = t
      · subst hut
        have hcreated := (known (Reachable.overview hr.reachable)).current w _ j
          (ledger_lookup hw₀) hj₀
        rw [Function.update_self]
        exact ⟨reports_exec hr ho hreports hcreated hlive₀ hlive, hanswers.exec⟩
      · rw [Function.update_of_ne hut]
        exact ⟨hreports, hanswers⟩
    · have hassigned := exited_assigned (Reachable.overview hr.reachable) he
      exact absurd hassigned ((dispatched_is_new hr.reachable hdispatch).2 _)
  have hintake := exec_intake ho
  generalize hpc : (s.task t).pc = pc at hintake
  cases hintake with
  | other accepted => exact hold (accepted ▸ he)
  | @accepted c e i hd₀ job worker connection current =>
    rcases he.of_append with he | ⟨hc, hexited⟩
    · exact hold he
    · -- The handler has just accepted the exit.
      obtain ⟨hframes, -⟩ := (based hr t).event c e hpc
      obtain ⟨code, signal, reason, hpayload⟩ : ∃ code signal reason,
          e.payload = some (.exit code signal reason) := by
        unfold JobEvent.exited at hexited
        split at hexited
        · next hpayload => exact ⟨_, _, _, hpayload⟩
        · cases hexited
      obtain rfl : i = j := by
        simp only [JobEvent.exited, hpayload] at hexited
        exact Option.some.inj (job.symm.trans hexited)
      obtain rfl : w = e.workerId := by
        rcases exec_current ho hw hj with ⟨hd₁, hw₁, -, hconnection⟩ | hdispatch
        · exact (wired (Reachable.overview hr.reachable)).distinct w e.workerId _ _
            (ledger_lookup hw₁) (ledger_lookup worker)
            (hconnection.trans (hc.trans connection.symm))
        · cases hpc.symm.trans hdispatch
      refine ⟨t, ?_⟩
      rw [Function.update_self, hframes, hpayload, hc]
      exact ⟨rfl, rfl⟩
  | _ => exact hold he

theorem Exiting.keep (h : Exiting s) (heq : s'.overview = s.overview)
    (hworkers : s'.shared.workers = s.shared.workers)
    (htask : ∀ t, s'.task t = s.task t ∨
      (s.task t).role.reports = none ∧ (s.task t).role.frees = none) : Exiting s' := by
  have hrole : ∀ t, (s'.task t).role = (s.task t).role := fun t =>
    congrFun (congrArg Overview.role heq) t
  have hledger : s'.shared.ledger = s.shared.ledger := congrArg Overview.ledger heq
  have hassigned : ∀ c, (s'.shared.channel c).assignedJobs = (s.shared.channel c).assignedJobs :=
    fun c => congrFun (congrArg Ledger.assigned hledger) c
  have haccepted : s'.shared.accepted = s.shared.accepted := congrArg Ledger.accepted hledger
  have hfinished : ∀ j, (s'.shared.inner j).finished = (s.shared.inner j).finished := fun j =>
    congrArg (fun L => (Ledger.flags L j).finished) hledger
  refine ⟨fun t j w c hj hw => ?_, fun t j w hd hfrees hw hj => ?_, fun w hd j hw hj he hlive => ?_⟩
  · rw [hrole] at hj
    rcases htask t with hsame | ⟨hnone, -⟩
    · rw [hsame] at hw
      exact hassigned c ▸ h.assigned t j w c hj hw
    · cases hnone.symm.trans hj
  · rw [hrole] at hfrees
    rcases htask t with hsame | ⟨-, hnone⟩
    · rw [hsame]
      exact h.freed t j w hd hfrees (hworkers ▸ hw) hj
    · cases hnone.symm.trans hfrees
  · rw [haccepted] at he
    obtain ⟨t, hreports, hanswers⟩ := h.exited w hd j (hworkers ▸ hw) hj he (hfinished j ▸ hlive)
    refine ⟨t, (congrArg Role.reports (hrole t)).trans hreports, ?_⟩
    rcases htask t with hsame | ⟨hnone, -⟩
    · rwa [hsame]
    · cases hnone.symm.trans hreports

theorem setTask_or {P : Task → Prop} {task : Task} (h : P (s.task t)) (u : Tid) :
    (s.setTask t task).task u = s.task u ∨ P (s.task u) := by
  by_cases hut : u = t
  · subst hut
    exact .inr h
  · exact .inl (Function.update_of_ne hut _ _)

theorem Exiting.step (h : Exiting s) (hr : ReachableWhen (system env) State.Handled s)
    (hc : s.Handled a) (hs : s.step env a = some s') : Exiting s' := by
  have hmono : ∀ c j, j ∈ (s.shared.channel c).assignedJobs → j ∈ (s'.shared.channel c).assignedJobs :=
    fun c j hj => assignedJobs_step hr.reachable hj hs
  have hfinished : ∀ j, (s.shared.inner j).finished = true → (s'.shared.inner j).finished = true :=
    fun j hj => finished_step hr.reachable hj hs
  have horderly := Reachable.orderly hr.reachable
  cases State.step_cases hs with
  | @start n op vacant =>
    rcases State.step_overview horderly hs with heq | ⟨_, _, hrun, -⟩
    · exact h.keep heq rfl (setTask_or (P := fun task => task.role.reports = none ∧
        task.role.frees = none) (by rw [Task.role, vacant]; exact ⟨rfl, rfl⟩))
    · cases hrun
  | @resume t choice r f frames at_ =>
    refine h.keep (State.resume_overview horderly at_) rfl
      (setTask_or (P := fun task => task.role.reports = none ∧ task.role.frees = none) ?_)
    rw [at_]
    cases f <;> exact ⟨rfl, rfl⟩
  | @exec t choice o ho =>
    refine ⟨fun u j w c hj hw => ?_, fun u j w hd hfrees hw hj => ?_,
      fun w hd j hw hj he hlive => h.exec_exited hr ho hfinished hw hj he hlive⟩
    · by_cases hut : u = t
      · subst hut
        simp only [Function.update_self] at hj hw
        exact h.exec_assigned hr.reachable rfl (based hr u) hmono ho hj hw
      · simp only [Function.update_of_ne hut] at hj hw
        exact hmono c j (h.assigned u j w c hj hw)
    · by_cases hut : u = t
      · subst hut
        simp only [Function.update_self] at hfrees ⊢
        exact h.exec_freed hr hc ho hfrees hw hj
      · simp only [Function.update_of_ne hut] at hfrees ⊢
        rcases exec_current ho hw hj with ⟨hd₀, hw₀, hj₀, hconnection⟩ | hdispatch
        · exact hconnection ▸ h.freed u j w hd₀ hfrees hw₀ hj₀
        · obtain ⟨stage, hcompleting⟩ := Role.completing_of_frees hfrees
          have hdone : (s.shared.inner j).finished = true :=
            completing_finished (Reachable.overview hr.reachable) hcompleting
          cases (dispatched_is_new hr.reachable hdispatch).1.symm.trans hdone
  | outside ho =>
    refine h.keep (by simp only [State.overview, ho.ledger]) ?_ fun t => .inl rfl
    cases ho <;> rfl

theorem exiting (h : ReachableWhen (system env) State.Handled s) : Exiting s := by
  refine h.invariant ⟨fun t j w c hj => ?_, fun t j w hd hfrees => ?_, fun w hd j hw => ?_⟩
    fun hr hi hc hs => hi.step hr hc hs
  · cases t <;> cases hj
  · cases t <;> cases hfrees
  · cases hw

/-- As long as a worker has a job whose exit was accepted, its handler is busy with that exit. -/
theorem answers_of_exited (h : ReachableWhen (system env) State.Handled s) {w : String}
    {hd : WorkerHandle} {j : Uuid} (hw : s.shared.workers.lookup w = some hd)
    (hj : hd.currentJob = some j) (he : Exited s.shared.accepted hd.connectionId j) :
    ∃ t, (s.task t).Answers w hd.connectionId ∧ (s.task t).role ≠ .idle := by
  have hne : ∀ {t}, ((s.task t).role.reports = some j ∨ (s.task t).role.frees = some (j, w)) →
      (s.task t).role ≠ .idle := by
    intro t ht hidle
    rw [hidle] at ht
    rcases ht with ht | ht <;> cases ht
  rcases owned (Reachable.overview h.reachable) w hd.handle j (ledger_lookup hw) hj with
    ⟨-, hlive⟩ | ⟨t, hfrees⟩
  · obtain ⟨t, hreports, hanswers⟩ := (exiting h).exited w hd j hw hj he hlive
    exact ⟨t, hanswers, hne (.inl hreports)⟩
  · exact ⟨t, (exiting h).freed t j w hd hfrees hw hj, hne (.inr hfrees)⟩

/-! ### The last job of a worker -/

/-- The job that `heartbeat` accepts from a worker: the one it has, or the last one it had. -/
def WorkerHandle.latest (hd : WorkerHandle) : Option Uuid :=
  hd.currentJob.or (hd.recentlyCompletedJob.map Prod.fst)

def Shared.Latest (sh : Shared) : Prop :=
  ∀ w hd, sh.workers.lookup w = some hd →
    hd.latest = (sh.channel hd.connectionId).assignedJobs.getLast?

theorem Shared.Latest.insert {w : String} {hd : WorkerHandle} (h : sh.Latest)
    (hw : sh.workers.lookup w = some hd) (hd' : WorkerHandle) (hlatest : hd'.latest = hd.latest)
    (hconnection : hd'.connectionId = hd.connectionId) (v : String) (x : WorkerHandle)
    (hx : (sh.workers.insert w hd').lookup v = some x) :
    x.latest = (sh.channel x.connectionId).assignedJobs.getLast? := by
  by_cases hvw : v = w
  · subst hvw
    obtain rfl := Option.some.inj ((AList.lookup_insert _).symm.trans hx)
    rw [hlatest, hconnection]
    exact h v hd hw
  · exact h v x ((AList.lookup_insert_ne hvw).symm.trans hx)

theorem exec_latest (h : sh.Latest) (hwired : Wired sh.ledger)
    (ho : exec env t choice sh pc = some o) : o.shared.Latest := by
  have hlookup : ∀ {w hd}, sh.workers.lookup w = some hd → sh.ledger.workers w = some hd.handle :=
    fun hw => by simp [Shared.ledger, hw]
  intro v x hx
  -- The worker is an old one and its channel was not written.
  have hother : ∀ {c} ch, sh.workers.lookup v = some x → x.connectionId ≠ c →
      x.latest = (update sh.channel c ch x.connectionId).assignedJobs.getLast? := by
    intro c ch hx hne
    rw [Function.update_of_ne hne]
    exact h v x hx
  cases exec_traffic ho with
  | quiet workers channel =>
    rw [workers] at hx
    rw [channel]
    exact h v x hx
  | named => exact h v x hx
  | found => exact h v x hx
  | @sent j action w c ch sent =>
    by_cases hc : x.connectionId = c
    · subst hc
      change x.latest = (update sh.channel _ ch _).assignedJobs.getLast?
      rw [Function.update_self, assignedJobs_trySend sent]
      exact (h v x hx).trans (congrArg _ (List.append_nil _).symm)
    · exact hother ch hx hc
  | @registered r capacity c fresh free =>
    by_cases hvr : v = r.workerId
    · subst hvr
      obtain rfl := Option.some.inj ((AList.lookup_insert _).symm.trans hx)
      change none = (update sh.channel c _ c).assignedJobs.getLast?
      rw [Function.update_self]
      rfl
    · have hx := (AList.lookup_insert_ne hvr).symm.trans hx
      exact hother _ hx fun hc => fresh (hc ▸ hwired.known v _ (hlookup hx))
  | @seen _ w hd _ _ worker =>
    exact h.insert worker { hd with lastSeen := sh.instant } rfl rfl v x hx
  | @freed j _ w hd worker current =>
    refine h.insert worker
      { hd with currentJob := none, recentlyCompletedJob := some (j, sh.instant) } ?_ rfl v x hx
    rw [WorkerHandle.latest, WorkerHandle.latest, current]
    rfl
  | @lost w =>
    by_cases hvw : v = w
    · subst hvw
      cases (AList.lookup_erase v _).symm.trans hx
    · exact h v x ((AList.lookup_erase_ne hvw).symm.trans hx)
  | @assigned j w hd ch room worker idle sent =>
    by_cases hvw : v = w
    · subst hvw
      obtain rfl := Option.some.inj ((AList.lookup_insert _).symm.trans hx)
      change some j = (update sh.channel hd.connectionId ch hd.connectionId).assignedJobs.getLast?
      rw [Function.update_self, assignedJobs_trySend sent]
      exact List.getLast?_concat.symm
    · have hx := (AList.lookup_insert_ne hvw).symm.trans hx
      exact hother ch hx fun hc => hvw (hwired.distinct v w _ _ (hlookup hx) (hlookup worker) hc)

theorem latest (h : Reachable env s) : s.shared.Latest := by
  refine h.invariant (I := fun s => s.shared.Latest) (fun w hd hw => by cases hw)
    fun hr hi _ hs => ?_
  cases State.step_cases hs with
  | start => exact hi
  | resume => exact hi
  | exec ho => exact exec_latest hi (wired (Reachable.overview hr)) ho
  | outside ho =>
    cases ho with
    | tick => exact hi
    | setClock => exact hi
    | channel c ch sent =>
      intro w hd hw
      refine (hi w hd hw).trans (congrArg List.getLast? ?_)
      by_cases hc : hd.connectionId = c
      · subst hc
        simp only [Shared.setChannel, Function.update_self, Channel.assignedJobs, sent]
      · simp only [Shared.setChannel, Function.update_of_ne hc]

/-! ### Heartbeats -/

/-- A report of the job that the worker has just completed comes in the grace period. -/
def WorkerHandle.inGrace (hd : WorkerHandle) (now : Nat) (reported : Option JobIdText) : Bool :=
  match hd.currentJob, hd.recentlyCompletedJob with
  | none, some (j, at_) => reported != some (.canonical j) || decide (now - at_ ≤ seconds 5)
  | _, _ => true

def State.inGrace (s : State) : Action → Bool
  | .run t _ =>
    match (s.task t).pc with
    | .heartbeat w _ reported =>
      (s.shared.workers.lookup w).all (·.inGrace s.shared.instant reported)
    | _ => true
  | _ => true

theorem checkReport_latest {hd : WorkerHandle} {now : Nat} {j : Uuid} (hj : hd.latest = some j)
    (hgrace : hd.inGrace now (some (.canonical j)) = true) :
    hd.checkReport now (some (.canonical j)) = .ok () := by
  cases hcurrent : hd.currentJob with
  | some k =>
    obtain rfl : k = j := by simpa [WorkerHandle.latest, hcurrent] using hj
    simp only [WorkerHandle.checkReport, hcurrent, if_true]
  | none =>
    cases hrecent : hd.recentlyCompletedJob with
    | none => simp [WorkerHandle.latest, hcurrent, hrecent] at hj
    | some p =>
      obtain rfl : p.1 = j := by simpa [WorkerHandle.latest, hcurrent, hrecent] using hj
      have hnow : now - p.2 ≤ seconds 5 := by
        simpa [WorkerHandle.inGrace, hcurrent, hrecent] using hgrace
      simp only [WorkerHandle.checkReport, hcurrent, hrecent, hnow, and_self, if_true]

theorem checkReport_idle {hd : WorkerHandle} {now : Nat} (h : hd.currentJob = none) :
    hd.checkReport now none = .ok () := by
  simp only [WorkerHandle.checkReport, h]

theorem heartbeat_of_checkReport {w : String} {hd : WorkerHandle} {reported : Option JobIdText}
    (hw : sh.workers.lookup w = some hd) (hcheck : hd.checkReport sh.instant reported = .ok ()) :
    heartbeat sh w hd.connectionId reported =
      goto (sh.setWorker w { hd with lastSeen := sh.instant }) (.done .unit) := by
  simp only [heartbeat, hw, hcheck, ne_eq, not_true_eq_false, if_false]

end

end SmartC.Executor
