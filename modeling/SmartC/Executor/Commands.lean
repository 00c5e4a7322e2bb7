import SmartC.Executor.Traffic

/-!
# Commands follow their assignment

A session remembers its worker by name and `send_command` looks the name up
when it sends. The order of a job's messages on a connection therefore rests
on `Routed`: whoever remembers a name finds under it the connection on which
the job was assigned. Registration keeps this only where it meets nobody who
remembers the name.
-/

namespace SmartC.Executor

open Function (update)
open Transition (ReachableWhen)

def Ordered (sent : List ApiMessage) : Prop :=
  ∀ (k : Nat) (j : Uuid) (action : Option CommandAction), sent[k]? = some (.command ⟨j, action⟩) →
    ∃ i : Nat, i < k ∧ sent[i]?.bind ApiMessage.assigned = some j

theorem Ordered.nil : Ordered [] := by
  intro k j action hk
  simp at hk

theorem Ordered.append (h : Ordered sent)
    (hm : ∀ j action, m = .command ⟨j, action⟩ → j ∈ sent.filterMap ApiMessage.assigned) :
    Ordered (sent ++ [m]) := by
  intro k j action hk
  by_cases hlt : k < sent.length
  · rw [List.getElem?_append_left hlt] at hk
    obtain ⟨i, hi, hj⟩ := h k j action hk
    exact ⟨i, hi, by rwa [List.getElem?_append_left (by omega)]⟩
  · rw [List.getElem?_append_right (by omega), List.getElem?_singleton] at hk
    split at hk
    · obtain ⟨x, hx, hj⟩ := List.mem_filterMap.mp (hm j action (Option.some.inj hk))
      obtain ⟨i, hi, rfl⟩ := List.getElem_of_mem hx
      refine ⟨i, by omega, ?_⟩
      rw [List.getElem?_append_left hi, List.getElem?_eq_getElem hi]
      exact hj
    · cases hk

theorem Channel.trySend_sent {ch ch' : Channel} (h : ch.trySend m = .ok ch') :
    ch'.sent = ch.sent ++ [m] := by
  simp only [Channel.trySend] at h
  repeat' split at h
  all_goals cases h
  rfl

/-! ### Who remembers a worker's name -/

/-- Session `j`, or a `send_command` for it, has `w` as the name of its worker. -/
def State.Remembers (s : State) (j : Uuid) (w : String) : Prop :=
  (s.shared.inner j).assignedWorker = some w ∨
    ∃ t action, (s.task t).pc = .sendCommandWorker j action w

structure Routed (s : State) : Prop where
  named : ∀ j w h, s.Remembers j w → s.shared.workers.lookup w = some h →
    j ∈ (s.shared.channel h.connectionId).assignedJobs
  found : ∀ t j action w c, (s.task t).pc = .sendCommandSend j action w c →
    j ∈ (s.shared.channel c).assignedJobs
  ordered : ∀ c, Ordered (s.shared.channel c).sent

/-- A worker id is inserted only while no session and no `send_command` has it as the
name of its worker. A registration that is refused may come at any time. -/
def State.registersApart (env : Env) (s : State) : Action → Prop
  | .run t _ =>
    match (s.task t).pc with
    | .registerWorker r _ => AcceptableWorker env.config r →
      s.shared.workers.lookup r.workerId = none → ∀ j, ¬ s.Remembers j r.workerId
    | _ => True
  | _ => True

def State.registersNobody (s : State) : Action → Bool
  | .run t _ => match (s.task t).pc with
    | .registerWorker r _ => (s.shared.workers.lookup r.workerId).isSome
    | _ => true
  | _ => true

theorem State.registersApart_of_nobody {s : State} (h : s.registersNobody a = true) :
    s.registersApart env a := by
  cases a with
  | run t choice =>
    simp only [State.registersNobody] at h
    simp only [State.registersApart]
    split
    · next hpc =>
      simp only [hpc] at h
      intro _ free
      rw [free] at h
      cases h
    · trivial
  | _ => trivial

section

variable {env : Env} {s s' : State} {t : Tid} {a : Action} {sh : Shared} {task : Task}

theorem State.Remembers.of_update (htask : task.pc.addresses = false)
    (hkept : ∀ k w, (sh.inner k).assignedWorker = some w →
      (s.shared.inner k).assignedWorker = some w)
    (h : State.Remembers ⟨sh, update s.task t task⟩ j w) : s.Remembers j w := by
  rcases h with h | ⟨u, action, hu⟩
  · exact .inl (hkept j w h)
  · by_cases hut : u = t
    · subst hut
      have hpc : task.pc = .sendCommandWorker j action w := by simpa using hu
      simp [hpc, Pc.addresses] at htask
    · exact .inr ⟨u, action, by simpa [hut] using hu⟩

theorem found_of_update {P : Uuid → Uuid → Prop}
    (h : ∀ u j action w c, (s.task u).pc = .sendCommandSend j action w c → P j c)
    (ht : ∀ j action w c, task.pc = .sendCommandSend j action w c → P j c) (u : Tid) (j : Uuid)
    (action : CommandAction) (w : String) (c : Uuid)
    (hu : (update s.task t task u).pc = .sendCommandSend j action w c) : P j c := by
  by_cases hut : u = t
  · subst hut; exact ht j action w c (by simpa using hu)
  · exact h u j action w c (by simpa [hut] using hu)

theorem Pc.not_found {pc : Pc} (h : pc.addresses = false) (j : Uuid) (action : CommandAction)
    (w : String) (c : Uuid) : pc ≠ .sendCommandSend j action w c := by
  rintro rfl
  simp [Pc.addresses] at h

theorem Routed.keep (h : Routed s) (htask : task.pc.addresses = false)
    (hmono : ∀ c j, j ∈ (s.shared.channel c).assignedJobs → j ∈ (sh.channel c).assignedJobs)
    (hkept : ∀ k w, (sh.inner k).assignedWorker = some w →
      (s.shared.inner k).assignedWorker = some w)
    (hworkers : ∀ w hd', sh.workers.lookup w = some hd' →
      ∃ hd, s.shared.workers.lookup w = some hd ∧ hd.connectionId = hd'.connectionId)
    (hordered : ∀ c, Ordered (sh.channel c).sent) : Routed ⟨sh, update s.task t task⟩ where
  named j w hd' hj hw := by
    obtain ⟨hd, hw, hc⟩ := hworkers w hd' hw
    exact hc ▸ hmono _ _ (h.named j w hd (.of_update htask hkept hj) hw)
  found := found_of_update (fun u j action w c hu => hmono c j (h.found u j action w c hu))
    fun j action w c hpc => absurd hpc (Pc.not_found htask j action w c)
  ordered := hordered

theorem lookup_insert_connection {workers : Workers} {hd : WorkerHandle}
    (hw : workers.lookup w = some hd) (hd' : WorkerHandle)
    (hc : hd'.connectionId = hd.connectionId) (w' : String) (x : WorkerHandle) (hx : (workers.insert w hd').lookup w' = some x) :
    ∃ y, workers.lookup w' = some y ∧ y.connectionId = x.connectionId := by
  by_cases hww : w' = w
  · subst hww
    rw [AList.lookup_insert] at hx
    exact ⟨hd, hw, hc.symm.trans (congrArg _ (Option.some.inj hx))⟩
  · exact ⟨x, by rwa [AList.lookup_insert_ne hww] at hx, rfl⟩

theorem lookup_erase_connection {workers : Workers} (w w' : String) (x : WorkerHandle)
    (hx : (workers.erase w).lookup w' = some x) :
    ∃ y, workers.lookup w' = some y ∧ y.connectionId = x.connectionId := by
  by_cases hww : w' = w
  · rw [hww, AList.lookup_erase] at hx
    cases hx
  · exact ⟨x, by rwa [AList.lookup_erase_ne hww] at hx, rfl⟩

theorem Ordered.update {channel : Uuid → Channel} (h : ∀ c, Ordered (channel c).sent)
    (hc : Ordered ch.sent) (c' : Uuid) : Ordered (update channel c ch c').sent := by
  by_cases hcc : c' = c
  · subst hcc; simpa using hc
  · simpa [hcc] using h c'

theorem Frame.resume_addresses (r : Ret) (f : Frame) : (f.resume r).addresses = false := by
  cases f <;> simp only [Frame.resume] <;> (try split) <;> rfl

theorem Routed.exec (h : Routed s) (hc : s.registersApart env (.run t choice))
    (hmono : ∀ c j, j ∈ (s.shared.channel c).assignedJobs → j ∈ (o.shared.channel c).assignedJobs)
    (ho : exec env t choice s.shared (s.task t).pc = some o) (frames : List Frame) :
    Routed ⟨o.shared, update s.task t ⟨o.pc, frames⟩⟩ := by
  have htraffic := exec_traffic ho
  generalize hpc : (s.task t).pc = pc at htraffic
  cases htraffic with
  | quiet workers channel connections kept later =>
    refine h.keep later hmono kept ?_ (channel ▸ h.ordered)
    rw [workers]
    exact fun w hd hw => ⟨hd, hw, rfl⟩
  | seen worker later =>
    exact h.keep later hmono (fun _ _ hw => hw) (lookup_insert_connection worker _ rfl) h.ordered
  | freed worker current =>
    exact h.keep rfl hmono (fun _ _ hw => hw) (lookup_insert_connection worker _ rfl) h.ordered
  | lost worker connection =>
    exact h.keep rfl hmono (fun _ _ hw => hw) (lookup_erase_connection _) h.ordered
  | @named j action w worker =>
    refine ⟨fun k w' hd hk hw => ?_, ?_, h.ordered⟩
    · rcases hk with hk | ⟨u, action', hu⟩
      · exact h.named k w' hd (.inl hk) hw
      · by_cases hut : u = t
        · obtain ⟨rfl, rfl, rfl⟩ : j = k ∧ action = action' ∧ w = w' := by simpa [hut] using hu
          exact h.named j w hd (.inl worker) hw
        · exact h.named k w' hd (.inr ⟨u, action', by simpa [hut] using hu⟩) hw
    · exact found_of_update h.found (by simp)
  | @found j action w hd worker =>
    -- where the name leads, the job was assigned
    have hj : j ∈ (s.shared.channel hd.connectionId).assignedJobs :=
      h.named j w hd (.inr ⟨t, action, hpc⟩) worker
    refine ⟨fun k w' hd' hk hw => ?_, ?_, h.ordered⟩
    · rcases hk with hk | ⟨u, action', hu⟩
      · exact h.named k w' hd' (.inl hk) hw
      · by_cases hut : u = t
        · simp [hut] at hu
        · exact h.named k w' hd' (.inr ⟨u, action', by simpa [hut] using hu⟩) hw
    · refine found_of_update h.found fun k action' w' c hk => ?_
      obtain ⟨rfl, -, -, rfl⟩ := Pc.sendCommandSend.inj hk
      exact hj
  | @sent j action w c ch sent =>
    have hj : j ∈ (s.shared.channel c).assignedJobs := h.found t j action w c hpc
    refine h.keep rfl hmono (fun _ _ hw => hw) (fun w hd hw => ⟨hd, hw, rfl⟩)
      (Ordered.update h.ordered ?_)
    rw [Channel.trySend_sent sent]
    refine (h.ordered c).append fun k action' hk => ?_
    obtain ⟨rfl, -⟩ := JobCommand.mk.inj (ApiMessage.command.inj hk)
    exact hj
  | @registered r capacity c fresh free acceptable =>
    -- nothing was assigned on the new channel, so nobody may remember the name
    simp only [State.registersApart, hpc] at hc
    have hnobody : ∀ j, ¬ s.Remembers j r.workerId := hc acceptable free
    refine ⟨fun k w hd hk hw => ?_, ?_, Ordered.update h.ordered .nil⟩
    · have hk : s.Remembers k w := .of_update (by rfl) (fun _ _ hw => hw) hk
      have hne : w ≠ r.workerId := fun he => hnobody k (he ▸ hk)
      have hw : s.shared.workers.lookup w = some hd := (AList.lookup_insert_ne hne).symm.trans hw
      exact hmono _ _ (h.named k w hd hk hw)
    · exact found_of_update (fun u j action w c hu => hmono c j (h.found u j action w c hu))
        (by simp)
  | @assigned j w hd ch room worker idle sent =>
    have hjobs := assignedJobs_trySend sent
    refine ⟨fun k w' hd' hk hw => ?_, ?_, Ordered.update h.ordered ?_⟩
    · -- The session that is assigned in this step, or a name that was there before.
      obtain ⟨hd₀, hw₀, hc₀⟩ := lookup_insert_connection worker
        { hd with currentJob := some j } rfl w' hd' hw
      rcases hk with hk | ⟨u, action, hu⟩
      · by_cases hkj : k = j
        · subst hkj
          obtain rfl : w = w' := by simpa [Shared.setInner] using hk
          obtain rfl : hd = hd₀ := Option.some.inj (worker.symm.trans hw₀)
          rw [← hc₀]
          simp [Shared.setInner, Shared.setWorker, Shared.setChannel, hjobs, ApiMessage.assigned,
            Shared.assignment]
        · have hk : s.Remembers k w' := .inl (by
            simpa [Shared.setInner, Shared.setWorker, Shared.setChannel, Shared.setInnerLock, hkj]
              using hk)
          exact hc₀ ▸ hmono _ _ (h.named k w' hd₀ hk hw₀)
      · by_cases hut : u = t
        · simp [hut] at hu
        · have hk : s.Remembers k w' := .inr ⟨u, action, by simpa [hut] using hu⟩
          exact hc₀ ▸ hmono _ _ (h.named k w' hd₀ hk hw₀)
    · exact found_of_update (fun u j action w c hu => hmono c j (h.found u j action w c hu))
        (by simp)
    · rw [Channel.trySend_sent sent]
      exact (h.ordered _).append (by simp)

theorem Routed.step (hr : Reachable env s) (h : Routed s) (hc : s.registersApart env a)
    (hs : s.step env a = some s') : Routed s' := by
  have hmono : ∀ c j, j ∈ (s.shared.channel c).assignedJobs →
      j ∈ (s'.shared.channel c).assignedJobs := fun c j hj =>
    assignedJobs_step hr hj hs
  cases State.step_cases hs with
  | @start n op vacant known =>
    exact h.keep (by cases op <;> rfl) hmono (fun _ _ hw => hw) (fun w hd hw => ⟨hd, hw, rfl⟩)
      h.ordered
  | @resume t choice r f frames at_ =>
    exact h.keep (f.resume_addresses r) hmono (fun _ _ hw => hw) (fun w hd hw => ⟨hd, hw, rfl⟩)
      h.ordered
  | exec he => exact h.exec hc hmono he _
  | outside ho =>
    cases ho with
    | tick | setClock => exact ⟨h.named, h.found, h.ordered⟩
    | @channel c ch sent =>
      exact ⟨fun j w hd hj hw => hmono _ _ (h.named j w hd hj hw),
        fun t j action w c hpc => hmono _ _ (h.found t j action w c hpc),
        Ordered.update h.ordered (sent ▸ h.ordered c)⟩

end

theorem Routed.new : Routed .new where
  named j w hd _ hw := by simp [State.new, Shared.new] at hw
  found t j action w c hpc := by cases t with | dispatcher | task => simp [State.new, Task.vacant] at hpc
  ordered c k j action hk := by simp [State.new, Shared.new] at hk

theorem routed (h : ReachableWhen (system env) (State.registersApart env) s) : Routed s :=
  h.invariant .new fun hr hi hc hs => hi.step hr.reachable hc hs

/-! ### The order on a connection -/

/-- On every connection, every command comes after the assignment of its job. -/
def State.CommandsFollowAssignments (s : State) : Prop :=
  ∀ (c : Uuid) (k : Nat) (j : Uuid) (action : Option CommandAction),
    (s.shared.channel c).sent[k]? = some (.command ⟨j, action⟩) →
      ∃ i : Nat, i < k ∧ (s.shared.channel c).sent[i]?.bind ApiMessage.assigned = some j

theorem commands_follow_assignments (h : ReachableWhen (system env) (State.registersApart env) s) :
    s.CommandsFollowAssignments :=
  (routed h).ordered

/-- A worker registers, is assigned job 7, tries to register again while it has the job, and
receives a resize for it. -/
theorem resize_follows_assignment :
    ∃ s, ReachableWhen (system .forTest) (State.registersApart .forTest) s ∧
      (s.shared.channel 100).sent.map ApiMessage.assigned = [some 7, none] ∧
      s.CommandsFollowAssignments := by
  have hnobody : ∀ j, ¬ (State.new.setTask (.task 0) (Op.start (.work
      ⟨"w", "x86_64", "nsjail"⟩))).Remembers j "w" := by
    rintro j (h | ⟨u, action, h⟩)
    · cases h
    · rcases u with _ | _ | n <;> cases h
  have hstart : ReachableWhen (system .forTest) (State.registersApart .forTest)
      (State.new.setTask (.task 0) (Op.start (.work ⟨"w", "x86_64", "nsjail"⟩))) :=
    .step (a := .start 0 (.work ⟨"w", "x86_64", "nsjail"⟩)) .init trivial rfl
  have hregistered := ReachableWhen.step (a := Action.run (.task 0) (.fresh 100)) hstart
    (show State.registersApart .forTest _ (.run _ _) from fun _ _ => hnobody) rfl
  have hreach := hregistered.execute (fun _ _ _ => State.registersApart_of_nobody)
    (Schedule.go 0 2 ++ Schedule.submit 1 [7] ++ Schedule.assign "w" ++
      [.start 5 (.work ⟨"w", "x86_64", "nsjail"⟩), .run (.task 5) (.fresh 200)] ++
      .start 4 (.resize 7 80 24) :: Schedule.go 4 4) rfl
  exact ⟨_, hreach, by decide, commands_follow_assignments hreach⟩

/-- Worker "w" loses its connection 100, registers again as connection 200, and job 7 is
cancelled before the teardown of the old connection has completed its session: the
command goes to connection 200, which was never sent the job. -/
theorem command_reaches_new_connection :
    ∃ s, Reachable .forTest s ∧ ¬ s.CommandsFollowAssignments := by
  obtain ⟨s, hs, hp⟩ := Transition.reachable_of_execute (f := State.step .forTest) (i := .new)
    (Schedule.register 0 "w" 100 ++ Schedule.submit 1 [7] ++ Schedule.assign "w" ++
      .run (.task 0) (.inbound none) :: Schedule.go 0 1 ++ Schedule.register 4 "w" 200 ++
      .start 5 (.cancelExecution 7 "user_terminated") :: Schedule.go 5 4)
    (p := fun s => (s.shared.channel 200).sent =
      [.command ⟨7, some (.cancel "user_terminated")⟩]) (by decide)
  simp only [decide_eq_true_eq] at hp
  refine ⟨s, hs, fun hfollow => ?_⟩
  obtain ⟨i, hi, -⟩ := hfollow 200 0 7 (some (.cancel "user_terminated")) (by simp [hp])
  omega

end SmartC.Executor
