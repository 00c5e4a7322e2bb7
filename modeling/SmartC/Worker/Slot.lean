import SmartC.Worker.Client

/-!
# The one job of a connection

`connect_once` keeps its job in the local `active`, announces it in
`current_job`, runs it in a task of its own and learns of its end through the
completion channel. `Slot` says how the four go together while the loop runs,
`Sound` what they have to do with the assignments that were received, and
`Honest` that every event on the stream was enqueued by the job it names.
-/

namespace SmartC.Worker.Client

open Function (update)

def assignedJobs (k : Client) : List Uuid := k.received.filterMap ApiMessage.assigned

/-- The values of `active`, `current_job`, the running task and the completions that wait. -/
inductive Slot : Option Uuid → Option Uuid → Option Uuid → List Uuid → Prop
  | free : Slot none none none []
  | busy (j : Uuid) : Slot (some j) (some j) (some j) []
  | done (j : Uuid) : Slot (some j) (some j) none [j]

structure Sound (k : Client) : Prop where
  absent : ∀ j, j ∉ k.assignedJobs → k.jobs j = .absent j
  jobId : ∀ j, (k.jobs j).assignment.jobId = .canonical j
  active : ∀ j, k.active = some j → j ∈ k.assignedJobs
  running : ∀ j, k.running = some j → j ∈ k.assignedJobs
  returned : ∀ j, k.running ≠ some j → (k.jobs j).pc = .returned
  delivers : ∀ control, k.loop = .deliver control → ∃ j, k.active = some j
  unconnected : k.loop = .unconnected → k.received = [] ∧ k.emitted = []
  slot : k.ended = false → Slot k.active k.currentJob k.running k.completions

/-- The next message assigns no job a second time. -/
def AssignsOnce (k : Client) : Prop :=
  ∀ a rest, k.inbound = .assignment a :: rest → a.jobId ∉ k.assignedJobs

structure Honest (k : Client) : Prop where
  event : ∀ e, .event e ∈ k.emitted → e.workerId = k.workerId ∧
    ∃ j payload, e.jobId = .canonical j ∧ e.payload = some payload ∧ payload ∈ (k.jobs j).sent

/-- What a step of the connection does to job `j`, if `chosen` are the choices with which it may
run the job. -/
inductive JobStep (config : WorkerConfig) (k : Client) (chosen : JobChoice → Prop) (j : Uuid) :
    Job → Prop
  | same {job} (pc : job.pc = (k.jobs j).pc) (sent : job.sent = (k.jobs j).sent) :
      JobStep config k chosen j job
  | assigned {a rest} (next : k.inbound = .assignment a :: rest) (job : j = a.jobId) :
      JobStep config k chosen j (.new (.received a))
  | ran {choice job} (picked : chosen choice)
      (run : (k.jobs j).execute config choice = some job) : JobStep config k chosen j job

theorem Sound.new : Sound .new where
  absent _ _ := rfl
  jobId _ := rfl
  active := nofun
  running := nofun
  returned _ _ := rfl
  delivers := nofun
  unconnected _ := ⟨rfl, rfl⟩
  slot _ := .free

theorem Honest.new : Honest .new := ⟨nofun⟩

section

variable {config : WorkerConfig} {k k' : Client} {a : ClientAction} {j : Uuid} {job job' : Job}
  {chosen : JobChoice → Prop}

/-! ### Frames -/

theorem prepare_assignment (error : Option String) :
    (job.prepare error).assignment = job.assignment := by
  unfold Job.prepare
  repeat' split
  all_goals rfl

theorem sendPayload_assignment (payload : EventPayload) (next : JobAt) (result : SendResult) :
    (job.sendPayload payload next result).assignment = job.assignment := by
  cases result <;> rfl

theorem compile_assignment {link : Bool} {loop : CompileLoop} {choice : JobChoice}
    (h : job.compile config link loop choice = some job') : job'.assignment = job.assignment := by
  simp only [Job.compile, Job.compileControl] at h
  repeat' split at h
  all_goals cases h
  all_goals rfl

theorem input_assignment (loop : RuntimeLoop) (data : Bytes) :
    (job.input loop data).assignment = job.assignment := by
  unfold Job.input
  repeat' split
  all_goals rfl

theorem run_assignment {loop : RuntimeLoop} {choice : JobChoice}
    (h : job.run config loop choice = some job') : job'.assignment = job.assignment := by
  simp only [Job.run, Job.runControl] at h
  split at h
  case h_2 =>
    obtain ⟨exit, -, rfl⟩ := Option.map_eq_some_iff.1 h
    rfl
  all_goals repeat' split at h
  all_goals cases h
  all_goals first | rfl | exact input_assignment _ _

theorem execute_assignment {choice : JobChoice} (h : job.execute config choice = some job') :
    job'.assignment = job.assignment := by
  unfold Job.execute at h
  split at h
  case h_1 => cases h; exact prepare_assignment _
  case h_5 => exact compile_assignment h
  case h_9 => exact run_assignment h
  case h_4 | h_8 => split at h <;> cases h <;> rfl
  all_goals cases h
  all_goals first | rfl | exact sendPayload_assignment _ _ _

theorem write_eq {error : Option String} (h : job.write error = some job') :
    job' = { job with writer := { job.writer with
      taken := job.writer.taken + 1, failed := error } } := by
  simp only [Job.write] at h
  split at h
  · cases h
  · exact (Option.some.inj h).symm

theorem fail_jobs (e : ClientError) (i : Uuid) :
    (k.fail e).jobs i = k.jobs i ∨ k.active = some i ∧
      (k.fail e).jobs i = { k.jobs i with controlsClosed := true } := by
  unfold fail
  cases hactive : k.active with
  | none => exact .inl rfl
  | some j =>
    by_cases hij : i = j
    · subst hij
      exact .inr ⟨rfl, by simp [setJob]⟩
    · exact .inl (by simp [setJob, hij])

theorem fail_job (e : ClientError) (i : Uuid) : ((k.fail e).jobs i).pc = (k.jobs i).pc ∧
    ((k.fail e).jobs i).controls = (k.jobs i).controls ∧
    ((k.fail e).jobs i).sent = (k.jobs i).sent ∧
    ((k.fail e).jobs i).writer = (k.jobs i).writer := by
  rcases fail_jobs (k := k) e i with hjobs | ⟨-, hjobs⟩ <;> rw [hjobs] <;>
    exact ⟨rfl, rfl, rfl, rfl⟩

theorem fail_loop (k : Client) (e : ClientError) : (k.fail e).loop = .ended (some e) := by
  cases hactive : k.active <;> simp only [fail, hactive]

theorem fail_frame (e : ClientError) : (k.fail e).received = k.received ∧
    (k.fail e).inbound = k.inbound ∧ (k.fail e).running = k.running ∧
    (k.fail e).emitted = k.emitted ∧ (k.fail e).workerId = k.workerId ∧
    (k.fail e).delivered = k.delivered := by
  unfold fail
  cases k.active <;> exact ⟨rfl, rfl, rfl, rfl, rfl, rfl⟩

/-! ### Sound -/

theorem setJob_jobId (h : Sound k) (hjob : job.assignment.jobId = .canonical j) (i : Uuid) :
    (update k.jobs j job i).assignment.jobId = .canonical i := by
  by_cases hij : i = j
  · subst hij
    rw [Function.update_self, hjob]
  · rw [Function.update_of_ne hij, h.jobId]

theorem setJob_absent (h : Sound k) (hj : j ∈ k.assignedJobs) (i : Uuid)
    (hi : i ∉ k.assignedJobs) : update k.jobs j job i = .absent i := by
  have hij : i ≠ j := fun heq => hi (heq ▸ hj)
  rw [Function.update_of_ne hij, h.absent i hi]

theorem setJob_returned (h : Sound k) (hpc : k.running ≠ some j → job.pc = .returned) (i : Uuid)
    (hi : k.running ≠ some i) : (update k.jobs j job i).pc = .returned := by
  by_cases hij : i = j
  · subst hij
    rw [Function.update_self]
    exact hpc hi
  · rw [Function.update_of_ne hij, h.returned i hi]

theorem ended_of_select (h : k.loop = .select) : k.ended = false := by
  rw [ended, h]

theorem ended_of_deliver {control : JobControl} (h : k.loop = .deliver control) : k.ended = false := by
  rw [ended, h]

theorem Slot.of_none {current running : Option Uuid} {completions : List Uuid}
    (h : Slot none current running completions) :
    current = none ∧ running = none ∧ completions = [] := by
  cases h
  exact ⟨rfl, rfl, rfl⟩

theorem Slot.of_some {current running : Option Uuid} {completions : List Uuid}
    (h : Slot (some j) current running completions) : current = some j ∧
    (running = some j ∧ completions = [] ∨ running = none ∧ completions = [j]) := by
  cases h with
  | busy => exact ⟨rfl, .inl ⟨rfl, rfl⟩⟩
  | done => exact ⟨rfl, .inr ⟨rfl, rfl⟩⟩

theorem Sound.fail (h : Sound k) (e : ClientError) : Sound (k.fail e) := by
  obtain ⟨hreceived, -, hrunning, -⟩ := fail_frame (k := k) e
  have hassigned : (k.fail e).assignedJobs = k.assignedJobs := by
    rw [assignedJobs, hreceived, assignedJobs]
  refine ⟨fun i hi => ?_, fun i => ?_, nofun, ?_, fun i hi => ?_, nofun, nofun, nofun⟩
  · rw [hassigned] at hi
    rcases fail_jobs (k := k) e i with hjobs | ⟨hactive, -⟩
    · rw [hjobs, h.absent i hi]
    · exact absurd (h.active i hactive) hi
  · rcases fail_jobs (k := k) e i with hjobs | ⟨-, hjobs⟩ <;> rw [hjobs] <;> exact h.jobId i
  · rw [hrunning, hassigned]
    exact h.running
  · rw [hrunning] at hi
    rcases fail_jobs (k := k) e i with hjobs | ⟨-, hjobs⟩ <;> rw [hjobs] <;> exact h.returned i hi

theorem assignedJobs_take (k : Client) (rest : List ApiMessage) (m : ApiMessage) :
    ({ k with inbound := rest, received := k.received ++ [m] } : Client).assignedJobs =
      k.assignedJobs ++ m.assigned.toList := by
  cases hj : m.assigned <;> simp [assignedJobs, hj]

theorem Sound.take (h : Sound k) (hselect : k.loop = .select) (rest : List ApiMessage)
    (m : ApiMessage) : Sound { k with inbound := rest, received := k.received ++ [m] } := by
  have hassigned := assignedJobs_take k rest m
  refine ⟨fun i hi => ?_, h.jobId, fun i hi => ?_, fun i hi => ?_, h.returned, h.delivers,
    fun hloop => ?_, h.slot⟩
  · rw [hassigned] at hi
    exact h.absent i fun hmem => hi (List.mem_append_left _ hmem)
  · rw [hassigned]
    exact List.mem_append_left _ (h.active i hi)
  · rw [hassigned]
    exact List.mem_append_left _ (h.running i hi)
  · cases hselect.symm.trans hloop

theorem Sound.handles {m : ApiMessage} (h : Sound k) (hselect : k.loop = .select)
    (hm : ∀ j, m.assigned = some j → j ∈ k.assignedJobs) (hh : Handles k m k') : Sound k' := by
  cases hh with
  | @assigned a free =>
    have ha : a.jobId ∈ k.assignedJobs := hm a.jobId rfl
    have hslot := h.slot (ended_of_select hselect)
    rw [free] at hslot
    obtain ⟨-, hrunning, hcompletions⟩ := hslot.of_none
    refine ⟨setJob_absent h ha, setJob_jobId h rfl, ?_, ?_, fun i hi => ?_, ?_, ?_, fun _ => ?_⟩
    · rintro _ ⟨⟩
      exact ha
    · rintro _ ⟨⟩
      exact ha
    · have hij : i ≠ a.jobId := fun heq => hi (congrArg some heq.symm)
      exact (congrArg Job.pc (Function.update_of_ne hij _ _)).trans
        (h.returned i (by rw [hrunning]; nofun))
    · intro control hloop
      cases hselect.symm.trans hloop
    · intro hloop
      cases hselect.symm.trans hloop
    · dsimp only [setJob]
      rw [hcompletions]
      exact .busy a.jobId
  | accepted active job valid =>
    exact ⟨h.absent, h.jobId, h.active, h.running, h.returned, fun _ _ => ⟨_, active⟩, nofun,
      fun _ => h.slot (ended_of_select hselect)⟩
  | refused => exact h.fail _

theorem Sound.setJob (h : Sound k) (job : Job) (hj : j ∈ k.assignedJobs)
    (hjob : job.assignment = (k.jobs j).assignment)
    (hpc : k.running ≠ some j → job.pc = .returned) : Sound (k.setJob j job) where
  absent := setJob_absent h hj
  jobId := setJob_jobId h (by rw [hjob, h.jobId])
  active := h.active
  running := h.running
  returned := setJob_returned h hpc
  delivers := h.delivers
  unconnected := h.unconnected
  slot := h.slot

theorem Sound.step (h : Sound k) (hs : StepCase config k a k') : Sound k' := by
  cases hs with
  | @received m rest k' select next turn handles =>
    refine (h.take select rest m).handles select (fun j hj => ?_) handles
    rw [assignedJobs_take, hj]
    exact List.mem_append_right _ (List.mem_singleton_self j)
  | @delivered control j loop active live room =>
    have hset := h.setJob { k.jobs j with controls := (k.jobs j).controls ++ [control] }
      (h.active j active) rfl (h.returned j)
    exact ⟨hset.absent, hset.jobId, hset.active, hset.running, hset.returned, nofun, nofun,
      fun _ => h.slot (ended_of_deliver loop)⟩
  | undelivered => exact h.fail _
  | @completed j rest select active next =>
    -- the completion that waits is that of the active job, and its task is gone
    have hslot := h.slot (ended_of_select select)
    rw [active, next] at hslot
    obtain ⟨-, ⟨-, hnil⟩ | ⟨hrunning, hone⟩⟩ := hslot.of_some
    · cases hnil
    · refine ⟨h.absent, h.jobId, nofun, h.running, h.returned, fun control hloop => ?_,
        h.unconnected, fun _ => ?_⟩
      · cases select.symm.trans hloop
      · rw [show k.running = none from hrunning, (List.cons.inj hone).2]
        exact .free
  | @completedOther i j rest select active next other =>
    -- The only completion that waits is that of the active job.
    have hslot := h.slot (ended_of_select select)
    rw [active, next] at hslot
    obtain ⟨-, ⟨-, hnil⟩ | ⟨-, hone⟩⟩ := hslot.of_some
    · cases hnil
    · exact absurd (List.cons.inj hone).1.symm other
  | closedIdle select active =>
    exact ⟨h.absent, h.jobId, h.active, h.running, h.returned, nofun, nofun, nofun⟩
  | @closed j select active =>
    have hset := h.setJob { k.jobs j with controls := (k.jobs j).controls ++ [JobControl.cancel] }
      (h.active j active) rfl (h.returned j)
    exact ⟨hset.absent, hset.jobId, hset.active, hset.running, hset.returned, nofun, nofun, nofun⟩
  | @ran j choice job running run =>
    have hset := h.setJob job (h.running j running) (execute_assignment run) (absurd running)
    refine ⟨hset.absent, hset.jobId, hset.active, hset.running, hset.returned, hset.delivers,
      fun hloop => ?_, hset.slot⟩
    have hnone := h.running j running
    rw [assignedJobs, (h.unconnected hloop).1] at hnone
    cases hnone
  | @wrote j error job write =>
    by_cases hj : j ∈ k.assignedJobs
    · rw [write_eq write]
      exact h.setJob _ hj rfl (h.returned j)
    · -- Nothing was ever handed to the writer of a job that was not assigned.
      rw [h.absent j hj] at write
      cases write
  | @finished j running returned =>
    refine ⟨h.absent, h.jobId, h.active, nofun, fun i _ => ?_, h.delivers, h.unconnected,
      fun hended => ?_⟩
    · by_cases hij : k.running = some i
      · obtain rfl : j = i := Option.some.inj (running.symm.trans hij)
        exact returned
      · exact h.returned i hij
    · have hslot := h.slot hended
      rw [running] at hslot
      generalize k.active = active, k.currentJob = current, k.completions = completions at hslot
      cases hslot
      exact .done j
  | readCurrentJob =>
    exact ⟨h.absent, h.jobId, h.active, h.running, h.returned, h.delivers, h.unconnected, h.slot⟩
  | sentHeartbeat connected =>
    refine ⟨h.absent, h.jobId, h.active, h.running, h.returned, h.delivers, fun hloop => ?_, h.slot⟩
    rw [Client.connected, show k.loop = _ from hloop] at connected
    cases connected

/-! ### One job -/

theorem JobStep.imp {chosen' : JobChoice → Prop} (h : JobStep config k chosen j job)
    (himp : ∀ choice, chosen choice → chosen' choice) : JobStep config k chosen' j job := by
  cases h with
  | same pc sent => exact .same pc sent
  | assigned next job => exact .assigned next job
  | ran picked run => exact .ran (himp _ picked) run

theorem JobStep.setJob {i : Uuid} (h : i = j → JobStep config k chosen j job) :
    JobStep config k chosen j (update k.jobs i job j) := by
  by_cases hij : i = j
  · subst hij
    rw [Function.update_self]
    exact h rfl
  · rw [Function.update_of_ne (Ne.symm hij)]
    exact .same rfl rfl

theorem step_job (hs : StepCase config k a k') (j : Uuid) :
    JobStep config k (fun choice => a = .job j (.run choice)) j (k'.jobs j) := by
  have hfail : ∀ {k₀ : Client} (e : ClientError), k₀.jobs = k.jobs →
      JobStep config k (fun choice => a = .job j (.run choice)) j ((k₀.fail e).jobs j) :=
    fun e hjobs => by
    obtain ⟨hpc, -, hsent, -⟩ := fail_job e j
    rw [hjobs] at hpc hsent
    exact .same hpc hsent
  cases hs with
  | received select next turn handles =>
    cases handles with
    | assigned => exact .setJob fun hj => .assigned next hj.symm
    | accepted => exact .same rfl rfl
    | refused => exact hfail _ rfl
  | delivered => exact .setJob fun hj => .same (by rw [hj]) (by rw [hj])
  | undelivered => exact hfail _ rfl
  | closed => exact .setJob fun hj => .same (by rw [hj]) (by rw [hj])
  | ran running run =>
    refine .setJob fun hj => ?_
    subst hj
    exact .ran rfl run
  | wrote write =>
    refine .setJob fun hj => ?_
    subst hj
    rw [write_eq write]
    exact .same rfl rfl
  | _ => exact .same rfl rfl

theorem JobStep.sent_grows (h : JobStep config k chosen j job) (hsound : Sound k)
    (honce : k.AssignsOnce) :
    (k.jobs j).sent <+: job.sent := by
  cases h with
  | same pc sent => rw [sent]
  | @assigned a rest next job =>
    subst job
    rw [hsound.absent _ (honce a rest next)]
    exact List.nil_prefix
  | ran choice run =>
    obtain ⟨e, -, hsent⟩ := execute_flows run
    rw [hsent]
    exact List.prefix_append _ _

/-! ### Honest -/

theorem emitted_grows (h : StepCase config k a k') : k.emitted <+: k'.emitted := by
  cases h with
  | received select next turn handles =>
    cases handles with
    | refused =>
      obtain ⟨-, -, -, hemitted, -⟩ := fail_frame (k := _) _
      rw [hemitted]
    | _ => exact List.prefix_refl _
  | undelivered =>
    obtain ⟨-, -, -, hemitted, -⟩ := fail_frame (k := k) .jobControlClosed
    rw [hemitted]
  | ran => exact List.prefix_append _ _
  | sentHeartbeat => exact List.prefix_append _ _
  | _ => exact List.prefix_refl _

theorem Honest.keep (h : Honest k) (hemitted : k'.emitted = k.emitted)
    (hworker : k'.workerId = k.workerId)
    (hsent : ∀ j, (k.jobs j).sent = [] ∨ (k'.jobs j).sent = (k.jobs j).sent) : Honest k' where
  event e he := by
    rw [hemitted] at he
    obtain ⟨hid, j, payload, hj, hp, hmem⟩ := h.event e he
    refine ⟨hid.trans hworker.symm, j, payload, hj, hp, ?_⟩
    rcases hsent j with hnil | hsame
    · rw [hnil] at hmem
      cases hmem
    · rwa [hsame]

theorem setJob_sent (job : Job) (hjob : job.sent = (k.jobs j).sent) (i : Uuid) :
    (update k.jobs j job i).sent = (k.jobs i).sent := by
  by_cases hij : i = j
  · subst hij
    rw [Function.update_self, hjob]
  · rw [Function.update_of_ne hij]

theorem Honest.fail (h : Honest k) (e : ClientError) : Honest (k.fail e) := by
  obtain ⟨-, -, -, hemitted, hworker, -⟩ := fail_frame (k := k) e
  exact h.keep hemitted hworker fun j => .inr (fail_job e j).2.2.1

theorem mem_newEvents {m : WorkerMessage} (h : m ∈ k.newEvents j job) : ∃ payload ∈ job.sent,
      m = .event ⟨k.workerId, (k.jobs j).assignment.jobId, some payload⟩ := by
  obtain ⟨payload, hmem, rfl⟩ := List.mem_map.1 h
  exact ⟨payload, List.mem_of_mem_drop hmem, rfl⟩

theorem Honest.step (h : Honest k) (hsound : Sound k) (honce : k.AssignsOnce)
    (hs : StepCase config k a k') : Honest k' := by
  cases hs with
  | @received m rest k' select next turn handles =>
    cases handles with
    | @assigned a free =>
      refine h.keep rfl rfl fun j => ?_
      by_cases hj : j = a.jobId
      · -- A job that is assigned now has done nothing yet.
        subst hj
        exact .inl (by rw [hsound.absent _ (honce a rest next)]; rfl)
      · exact .inr (congrArg Job.sent (Function.update_of_ne hj _ _))
    | accepted => exact ⟨h.event⟩
    | refused =>
      have htaken : Honest { k with inbound := rest, received := k.received ++ [m] } := ⟨h.event⟩
      exact htaken.fail _
  | @delivered control j =>
    exact h.keep rfl rfl fun i => .inr (setJob_sent
      { k.jobs j with controls := (k.jobs j).controls ++ [control] } rfl i)
  | undelivered => exact h.fail _
  | completed => exact ⟨h.event⟩
  | completedOther => exact ⟨h.event⟩
  | closedIdle => exact ⟨h.event⟩
  | @closed j =>
    exact h.keep rfl rfl fun i => .inr (setJob_sent
      { k.jobs j with controls := (k.jobs j).controls ++ [JobControl.cancel] } rfl i)
  | @ran j choice job running run =>
    have hflows := execute_flows run
    obtain ⟨e, -, hsent⟩ := hflows
    refine ⟨fun x hx => ?_⟩
    -- an event that was on the stream, or one that this step has enqueued
    rcases List.mem_append.1 hx with hx | hx
    · obtain ⟨hid, i, payload, hi, hp, hmem⟩ := h.event x hx
      refine ⟨hid, i, payload, hi, hp, ?_⟩
      by_cases hij : i = j
      · subst hij
        exact (congrArg (payload ∈ ·.sent) (Function.update_self i job k.jobs)).mpr
          (hsent ▸ List.mem_append_left _ hmem)
      · exact (congrArg (payload ∈ ·.sent) (Function.update_of_ne hij job k.jobs)).mpr hmem
    · obtain ⟨payload, hmem, heq⟩ := mem_newEvents hx
      cases heq
      exact ⟨rfl, j, payload, hsound.jobId j, rfl,
        (congrArg (payload ∈ ·.sent) (Function.update_self j job k.jobs)).mpr hmem⟩
  | wrote write => exact h.keep rfl rfl fun i => .inr (setJob_sent _ (by rw [write_eq write]) i)
  | finished => exact ⟨h.event⟩
  | readCurrentJob => exact ⟨h.event⟩
  | sentHeartbeat =>
    refine ⟨fun x hx => h.event x ?_⟩
    rcases List.mem_append.1 hx with hx | hx
    · exact hx
    · cases List.mem_singleton.1 hx

end

end SmartC.Worker.Client
