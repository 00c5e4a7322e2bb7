import SmartC.Executor.Commands

/-!
# Where a job's commands go

`Bound` needs no condition on the runs: whoever remembers the name of a job's
worker finds under it the connection on which the job was assigned, unless
that connection is gone, and a connection that is gone does not come back.
-/

namespace SmartC.Executor

open Function (update)

def Shared.Gone (sh : Shared) (c : Uuid) : Prop :=
  c ∈ sh.connections ∧ ∀ w h, sh.workers.lookup w = some h → h.connectionId ≠ c

/-- The name `w` leads to connection `c`, or the connection is gone. -/
def Shared.LeadsTo (sh : Shared) (w : String) (c : Uuid) : Prop :=
  (∃ h, sh.workers.lookup w = some h ∧ h.connectionId = c) ∨ sh.Gone c

structure Bound (s : State) : Prop where
  named : ∀ j w, s.Remembers j w →
    ∃ c, j ∈ (s.shared.channel c).assignedJobs ∧ s.shared.LeadsTo w c
  found : ∀ t j action w c', (s.task t).pc = .sendCommandSend j action w c' →
    ∃ c, j ∈ (s.shared.channel c).assignedJobs ∧ (c' = c ∨ s.shared.Gone c)

section

variable {env : Env} {t : Tid} {choice : Choice} {sh sh' : Shared} {pc : Pc} {o : Outcome}
  {s s' : State} {a : Action}

/-! ### Connections that are gone -/

theorem Shared.Gone.mono {c : Uuid} (h : sh.Gone c) (hconnections : sh.connections ⊆ sh'.connections)
    (hworkers : ∀ w hd', sh'.workers.lookup w = some hd' →
      (∃ hd, sh.workers.lookup w = some hd ∧ hd.connectionId = hd'.connectionId) ∨
        hd'.connectionId ∉ sh.connections) : sh'.Gone c := by
  refine ⟨hconnections h.1, fun w hd' hw hc => ?_⟩
  rcases hworkers w hd' hw with ⟨hd, hold, hsame⟩ | hnew
  · exact h.2 w hd hold (hsame.trans hc)
  · exact hnew (hc ▸ h.1)

theorem exec_workers (ho : exec env t choice sh pc = some o) (w : String) (hd' : WorkerHandle)
    (hw : o.shared.workers.lookup w = some hd') :
    (∃ hd, sh.workers.lookup w = some hd ∧ hd.connectionId = hd'.connectionId) ∨
      hd'.connectionId ∉ sh.connections := by
  cases exec_traffic ho with
  | quiet workers => exact .inl ⟨hd', workers ▸ hw, rfl⟩
  | named => exact .inl ⟨hd', hw, rfl⟩
  | found => exact .inl ⟨hd', hw, rfl⟩
  | sent => exact .inl ⟨hd', hw, rfl⟩
  | @registered r capacity c fresh free =>
    by_cases hwr : w = r.workerId
    · subst hwr
      obtain rfl := Option.some.inj ((AList.lookup_insert _).symm.trans hw)
      exact .inr fresh
    · exact .inl ⟨hd', (AList.lookup_insert_ne hwr).symm.trans hw, rfl⟩
  | @seen _ _ hd _ _ worker =>
    exact .inl (lookup_insert_connection worker { hd with lastSeen := sh.instant } rfl w hd' hw)
  | @freed j _ _ hd worker =>
    exact .inl (lookup_insert_connection worker
      { hd with currentJob := none, recentlyCompletedJob := some (j, sh.instant) } rfl w hd' hw)
  | lost => exact .inl (lookup_erase_connection _ w hd' hw)
  | @assigned j _ hd _ _ worker =>
    exact .inl (lookup_insert_connection worker { hd with currentJob := some j } rfl w hd' hw)

theorem insert_leadsTo {w w' : String} {hd hd' : WorkerHandle} {c : Uuid}
    (hworkers : sh'.workers = sh.workers.insert w hd') (hw : sh.workers.lookup w = some hd)
    (hc : hd'.connectionId = hd.connectionId)
    (h : ∃ x, sh.workers.lookup w' = some x ∧ x.connectionId = c) :
    ∃ x, sh'.workers.lookup w' = some x ∧ x.connectionId = c := by
  obtain ⟨x, hx, hxc⟩ := h
  rw [hworkers]
  by_cases hww : w' = w
  · subst hww
    obtain rfl := Option.some.inj (hw.symm.trans hx)
    exact ⟨hd', AList.lookup_insert _, hc.trans hxc⟩
  · exact ⟨x, (AList.lookup_insert_ne hww).trans hx, hxc⟩

theorem exec_connections (ho : exec env t choice sh pc = some o) :
    sh.connections ⊆ o.shared.connections := by
  cases exec_traffic ho with
  | quiet _ _ connections => exact (congrArg _ connections).mpr (Finset.Subset.refl _)
  | registered => exact Finset.subset_insert _ _
  | _ => exact Finset.Subset.refl _

theorem exec_gone {c : Uuid} (ho : exec env t choice sh pc = some o) (h : sh.Gone c) :
    o.shared.Gone c :=
  h.mono (exec_connections ho) (exec_workers ho)

theorem exec_leadsTo {w : String} {c : Uuid} (hwired : Wired sh.ledger)
    (ho : exec env t choice sh pc = some o) (h : sh.LeadsTo w c) : o.shared.LeadsTo w c := by
  refine h.elim (fun hfound => ?_) fun hgone => .inr (exec_gone ho hgone)
  have hconnections := exec_connections ho
  cases exec_traffic ho with
  | quiet workers => exact .inl (workers ▸ hfound)
  | named => exact .inl hfound
  | found => exact .inl hfound
  | sent => exact .inl hfound
  | @registered r capacity c' fresh free =>
    obtain ⟨x, hx, hxc⟩ := hfound
    have hne : w ≠ r.workerId := by
      rintro rfl
      cases free.symm.trans hx
    exact .inl ⟨x, (AList.lookup_insert_ne hne).trans hx, hxc⟩
  | seen worker => exact .inl (insert_leadsTo rfl worker rfl hfound)
  | freed worker => exact .inl (insert_leadsTo rfl worker rfl hfound)
  | @lost w' c' detail hd worker connection =>
    obtain ⟨x, hx, hxc⟩ := hfound
    have hlookup : ∀ w h, sh.workers.lookup w = some h → sh.ledger.workers w = some h.handle :=
      fun w h hw => by simp [Shared.ledger, hw]
    by_cases hww : w = w'
    · -- The worker of `c` is erased, and no other has the connection.
      subst hww
      refine .inr ⟨hconnections (hxc ▸ hwired.known w _ (hlookup w x hx)), fun v y hy hyc => ?_⟩
      by_cases hvw : v = w
      · subst hvw
        cases (AList.lookup_erase v _).symm.trans hy
      · have hy : sh.workers.lookup v = some y := (AList.lookup_erase_ne hvw).symm.trans hy
        exact hvw (hwired.distinct v w _ _ (hlookup v y hy) (hlookup w x hx) (hyc.trans hxc.symm))
    · exact .inl ⟨x, (AList.lookup_erase_ne hww).trans hx, hxc⟩
  | assigned room worker => exact .inl (insert_leadsTo rfl worker rfl hfound)

/-! ### Bound -/

theorem Bound.exec (hr : Reachable env s) (h : Bound s)
    (hmono : ∀ c j, j ∈ (s.shared.channel c).assignedJobs → j ∈ (o.shared.channel c).assignedJobs)
    (ho : exec env t choice s.shared (s.task t).pc = some o) (frames : List Frame) :
    Bound ⟨o.shared, update s.task t ⟨o.pc, frames⟩⟩ := by
  have hleads : ∀ {w c}, s.shared.LeadsTo w c → o.shared.LeadsTo w c :=
    exec_leadsTo (wired (Reachable.overview hr)) ho
  have hnamed : ∀ j w, s.Remembers j w →
      ∃ c, j ∈ (o.shared.channel c).assignedJobs ∧ o.shared.LeadsTo w c := fun j w hj => by
    obtain ⟨c, hc, hw⟩ := h.named j w hj
    exact ⟨c, hmono c j hc, hleads hw⟩
  have hfound : ∀ u j action w c', (s.task u).pc = .sendCommandSend j action w c' →
      ∃ c, j ∈ (o.shared.channel c).assignedJobs ∧ (c' = c ∨ o.shared.Gone c) :=
    fun u j action w c' hu => by
      obtain ⟨c, hc, hw⟩ := h.found u j action w c' hu
      exact ⟨c, hmono c j hc, hw.imp_right (exec_gone ho)⟩
  -- what is remembered stays bound; the cases show how something comes to be remembered
  have htraffic := exec_traffic ho
  generalize hpc : (s.task t).pc = pc at htraffic
  cases htraffic with
  | quiet workers channel connections kept later =>
    refine ⟨fun j w hj => hnamed j w (.of_update later kept hj), found_of_update hfound ?_⟩
    exact fun j action w c hpc => absurd hpc (Pc.not_found later j action w c)
  | @named j action w worker =>
    refine ⟨fun k w' hk => ?_, found_of_update hfound (by simp)⟩
    rcases hk with hk | ⟨u, action', hu⟩
    · exact hnamed k w' (.inl hk)
    · by_cases hut : u = t
      · obtain ⟨rfl, rfl, rfl⟩ : j = k ∧ action = action' ∧ w = w' := by simpa [hut] using hu
        exact hnamed j w (.inl worker)
      · exact hnamed k w' (.inr ⟨u, action', by simpa [hut] using hu⟩)
  | @found j action w hd worker =>
    refine ⟨fun k w' hk => ?_, found_of_update hfound fun k action' w' c' hk => ?_⟩
    · rcases hk with hk | ⟨u, action', hu⟩
      · exact hnamed k w' (.inl hk)
      · by_cases hut : u = t
        · simp [hut] at hu
        · exact hnamed k w' (.inr ⟨u, action', by simpa [hut] using hu⟩)
    · obtain ⟨rfl, -, -, rfl⟩ := Pc.sendCommandSend.inj hk
      obtain ⟨c, hc, hleads⟩ := h.named j w (.inr ⟨t, action, hpc⟩)
      refine ⟨c, hc, hleads.imp_left ?_⟩
      rintro ⟨x, hx, rfl⟩
      rw [Option.some.inj (worker.symm.trans hx)]
  | @assigned j w hd ch room worker idle sent =>
    refine ⟨fun k w' hk => ?_, found_of_update hfound (by simp)⟩
    rcases hk with hk | ⟨u, action, hu⟩
    · by_cases hkj : k = j
      · subst hkj
        obtain rfl : w = w' := by simpa [Shared.setInner] using hk
        refine ⟨hd.connectionId, ?_, .inl ⟨_, AList.lookup_insert _, rfl⟩⟩
        simp [Shared.setInner, Shared.setWorker, Shared.setChannel, assignedJobs_trySend sent,
          ApiMessage.assigned, Shared.assignment]
      · refine hnamed k w' (.inl ?_)
        simpa [Shared.setInner, Shared.setWorker, Shared.setChannel, Shared.setInnerLock, hkj]
          using hk
    · by_cases hut : u = t
      · simp [hut] at hu
      · exact hnamed k w' (.inr ⟨u, action, by simpa [hut] using hu⟩)
  | registered =>
    exact ⟨fun j w hj => hnamed j w (.of_update rfl (fun _ _ hw => hw) hj),
      found_of_update hfound (by simp)⟩
  | sent =>
    exact ⟨fun j w hj => hnamed j w (.of_update rfl (fun _ _ hw => hw) hj),
      found_of_update hfound (by simp)⟩
  | seen worker later =>
    refine ⟨fun j w hj => hnamed j w (.of_update later (fun _ _ hw => hw) hj),
      found_of_update hfound ?_⟩
    exact fun j action w c hpc => absurd hpc (Pc.not_found later j action w c)
  | freed =>
    exact ⟨fun j w hj => hnamed j w (.of_update rfl (fun _ _ hw => hw) hj),
      found_of_update hfound (by simp)⟩
  | lost =>
    exact ⟨fun j w hj => hnamed j w (.of_update rfl (fun _ _ hw => hw) hj),
      found_of_update hfound (by simp)⟩

theorem Outside.leads (h : Outside sh sh') (w : String) (c : Uuid) :
    (sh.LeadsTo w c → sh'.LeadsTo w c) ∧ (sh.Gone c → sh'.Gone c) := by
  cases h <;> exact ⟨id, id⟩

theorem Bound.step (hr : Reachable env s) (h : Bound s) (hs : s.step env a = some s') :
    Bound s' := by
  have hmono : ∀ c j, j ∈ (s.shared.channel c).assignedJobs →
      j ∈ (s'.shared.channel c).assignedJobs := fun c j hj => assignedJobs_step hr hj hs
  cases State.step_cases hs with
  | @start n op vacant known =>
    have hop : op.start.pc.addresses = false := by cases op <;> rfl
    refine ⟨fun j w hj => h.named j w (.of_update hop (fun _ _ hw => hw) hj),
      found_of_update h.found ?_⟩
    exact fun j action w c hpc => absurd hpc (Pc.not_found hop j action w c)
  | @resume t choice r f frames at_ =>
    have hf := Frame.resume_addresses r f
    refine ⟨fun j w hj => h.named j w (.of_update hf (fun _ _ hw => hw) hj),
      found_of_update h.found ?_⟩
    exact fun j action w c hpc => absurd hpc (Pc.not_found hf j action w c)
  | @exec t choice o ho => exact h.exec hr hmono ho _
  | @outside _ sh ho =>
    refine ⟨fun j w hj => ?_, fun t j action w c' ht => ?_⟩
    · have hj : s.Remembers j w := by cases ho <;> exact hj
      obtain ⟨c, hc, hw⟩ := h.named j w hj
      exact ⟨c, hmono c j hc, (ho.leads w c).1 hw⟩
    · obtain ⟨c, hc, hw⟩ := h.found t j action w c' ht
      exact ⟨c, hmono c j hc, hw.imp_right (ho.leads w c).2⟩

theorem State.step_gone {c : Uuid} (h : s.shared.Gone c) (hs : s.step env a = some s') :
    s'.shared.Gone c := by
  cases State.step_cases hs with
  | start => exact h
  | resume => exact h
  | exec ho => exact exec_gone ho h
  | outside ho => exact (ho.leads "" c).2 h

theorem Bound.new : Bound .new where
  named j w hj := by
    rcases hj with hj | ⟨t, action, ht⟩
    · cases hj
    · cases t <;> cases ht
  found t j action w c' ht := by cases t <;> cases ht

theorem bound (h : Reachable env s) : Bound s :=
  h.invariant .new fun hr hi _ hstep => hi.step hr hstep

end

end SmartC.Executor
