import SmartC.Executor.Limits

/-!
# The queue and the dispatcher

`Waiting` bounds the jobs that wait, the one in the dispatcher's hands
included; the bound needs an admission to count that one too. `Alert` says
that a dispatcher which goes to sleep on a queue it could serve has a
notification coming: every task that makes a dispatch possible still owes one.
-/

namespace SmartC.Executor

open Function (update)
open Transition (ReachableWhen execute)

/-! ### The waiting-job limit -/

@[grind]
def Role.inHand : Role → Nat
  | .popped _ | .assigning _ | .returning .. => 1
  | .idle | .counting _ | .checking _ | .admitting _ | .enqueueing _ | .notifying | .awaiting
  | .parked | .reporting _ | .stopping _ | .ending .. | .completing .. => 0

def Ledger.waiting (L : Ledger) : Nat := L.queue.length + L.limits.pendingActivations

def AdmitsWithRoom (config : AppConfig) (o : Overview) (t : Tid) : Prop :=
  ∀ j, o.role t = .admitting j → o.ledger.waiting < config.queueCapacity →
    (o.ledger.limits.byVisitor (o.ledger.visitor j)).getD 0 < config.visitorConcurrency →
    (o.ledger.limits.byIp (o.ledger.ip j)).getD 0 < config.ipConcurrency →
    o.ledger.waiting + (o.role .dispatcher).inHand < config.queueCapacity

def Waiting (config : AppConfig) (L : Ledger) (role : Tid → Role) : Prop :=
  L.waiting + (role .dispatcher).inHand ≤ config.queueCapacity

section

variable {config : AppConfig} {L L' : Ledger} {role : Tid → Role} {t : Tid} {r r' : Role}

theorem inHand_update (r' : Role) (hr : role t = r) (h : r'.inHand = r.inHand) :
    (update role t r' .dispatcher).inHand = (role .dispatcher).inHand := by
  by_cases ht : t = .dispatcher
  · subst ht; rw [Function.update_self, h, hr]
  · rw [Function.update_of_ne (Ne.symm ht)]

theorem Waiting.move (h : Waiting config L role)
    (hreach : ReachableWhen (ledgerSystem config) (AdmitsWithRoom config) ⟨L, role⟩)
    (hroom : AdmitsWithRoom config ⟨L, role⟩ t) (hr : role t = r)
    (hm : Move config t L r L' r') : Waiting config L' (update role t r') := by
  have hd : r.dispatches = true → t = .dispatcher := hr ▸ dispatches_dispatcher hreach t
  have hframe := inHand_update r' hr
  simp only [Waiting, Ledger.waiting] at h ⊢
  cases hm
  -- the condition counts the job in the dispatcher's hands as well
  case consume j room visitor ip =>
    have hlt := hroom j hr room visitor ip
    simp only [Ledger.waiting] at hlt
    rw [hframe rfl]
    dsimp only
    omega
  case enqueue j =>
    -- a pending activation becomes a waiting job
    have hpending : 0 < L.limits.pendingActivations :=
      lt_of_lt_of_eq (pendingSessions_pos ((known hreach).roles t j (by simp [hr, Role.job]))
        (.inr ⟨t, by simp [hr, Role.vacates]⟩)) (tallied hreach).pending.symm
    rw [hframe rfl, List.length_append, List.length_singleton]
    dsimp only
    omega
  case unqueue j =>
    have hle := List.length_filter_le (· ≠ j) L.queue
    rw [hframe rfl]
    dsimp only
    omega
  case settle j w wasPending =>
    rw [hframe rfl]
    cases wasPending <;> simp only [if_true, Bool.false_eq_true, if_false] <;> omega
  case pop j rest ht head =>
    subst ht
    simp only [hr, head, Function.update_self, Role.inHand, List.length_cons] at h ⊢
    omega
  case drop j ended | assign j w hd room worker idle =>
    obtain rfl := hd rfl
    simp only [hr, Function.update_self, Role.inHand] at h ⊢
    omega
  case putBack j | retry j =>
    obtain rfl := hd rfl
    simp only [hr, Function.update_self, Role.inHand, List.length_cons] at h ⊢
    omega
  all_goals rw [hframe rfl]; exact h

end

theorem waiting (h : ReachableWhen (ledgerSystem config) (AdmitsWithRoom config) o) :
    Waiting config o.ledger o.role :=
  ledger_invariant h (by simp [Waiting, Ledger.waiting, Ledger.new, Role.inHand])
    fun hr hd hi ht hm => hi.move hr hd ht hm

/-! ### The waiting-job limit in the step model -/

def State.waiting (s : State) : Nat :=
  s.shared.queue.length + s.shared.limits.pendingActivations

/-- The jobs that the dispatcher has popped and neither assigned nor put back. -/
def State.inHand (s : State) : Nat := if (s.task .dispatcher).pc.popped.isSome then 1 else 0

/-- Whether `consume_ticket`, when it admits a session in this step, would also
admit it with the job in the dispatcher's hands counted as waiting. -/
def State.admitsWithRoom (config : AppConfig) (s : State) : Action → Bool
  | .run t _ =>
    match (s.task t).pc with
    | .consumeTicketLimits j =>
      config.queueCapacity ≤ s.waiting ||
        config.visitorConcurrency ≤
          (s.shared.limits.byVisitor (s.shared.data j).visitorId).getD 0 ||
        config.ipConcurrency ≤ (s.shared.limits.byIp (s.shared.data j).clientIp).getD 0 ||
        s.waiting + s.inHand < config.queueCapacity
    | _ => true
  | _ => true

theorem Pc.admitting {pc : Pc} (h : pc.role cause = .admitting j) :
    pc = .consumeTicketLimits j := by
  cases pc
  case completeSession k e stage => cases stage <;> simp [Pc.role] at h
  case done => cases cause <;> simp [Pc.role, Cause.after] at h
  case unregisterWorkerCount job _ => cases job <;> simp [Pc.role] at h
  case handleWorkerEventSession k payload =>
    rcases payload with _ | _ | _ | _ | _ | _ <;> simp [Pc.role] at h
  all_goals simp [Pc.role] at h ⊢ <;> exact h

theorem Pc.inHand_role (cause : Cause) (pc : Pc) :
    (pc.role cause).inHand = if pc.popped.isSome then 1 else 0 := by
  cases pc
  case completeSession k e stage => cases stage <;> rfl
  case done => cases cause <;> rfl
  case unregisterWorkerCount job _ => cases job <;> rfl
  case handleWorkerEventSession k payload => rcases payload with _ | _ | _ | _ | _ | _ <;> rfl
  all_goals rfl

theorem State.admitsWithRoom_overview {s : State}
    (h : s.admitsWithRoom config (.run t choice) = true) : AdmitsWithRoom config s.overview t := by
  intro j hj hlt hvisitor hip
  have hinHand : (s.overview.role .dispatcher).inHand = s.inHand := Pc.inHand_role ..
  have hrefused : ¬ ((config.queueCapacity ≤ s.waiting ∨ config.visitorConcurrency ≤
      (s.shared.limits.byVisitor (s.shared.data j).visitorId).getD 0) ∨
      config.ipConcurrency ≤ (s.shared.limits.byIp (s.shared.data j).clientIp).getD 0) :=
    not_or.2 ⟨not_or.2 ⟨Nat.not_le.2 hlt, Nat.not_le.2 hvisitor⟩, Nat.not_le.2 hip⟩
  simp only [State.admitsWithRoom, Pc.admitting hj, Bool.or_eq_true, decide_eq_true_eq] at h
  rw [hinHand]
  exact h.resolve_left hrefused

theorem waiting_jobs_within_capacity
    (h : ReachableWhen (system env) (fun s a => s.admitsWithRoom env.config a = true) s) :
    s.shared.queue.length + s.shared.limits.pendingActivations ≤ env.config.queueCapacity :=
  le_trans (Nat.le_add_right _ _)
    (waiting (reachable_overview (fun _ _ _ hc => State.admitsWithRoom_overview hc) h))

/-- Two sessions admitted while the dispatcher is between two attempts. -/
theorem two_waiting_jobs_within_capacity :
    ∃ s, ReachableWhen (system .forTest) (fun s a => s.admitsWithRoom .forTest a = true) s ∧
      s.shared.queue = [7, 8] ∧
      s.shared.queue.length + s.shared.limits.pendingActivations ≤
        AppConfig.forTest.queueCapacity := by
  obtain ⟨s, hs, hp⟩ := Transition.reachableWhen_of_execute (f := State.step .forTest) (i := .new)
    (c := State.admitsWithRoom .forTest) (Schedule.submit 0 [7, 8])
    (p := fun s => s.shared.queue = [7, 8]) (by decide)
  exact ⟨s, hs, of_decide_eq_true hp, waiting_jobs_within_capacity hs⟩

/-- With the default limits: sixteen jobs wait, the dispatcher pops the first, a
seventeenth session is admitted in its place, and the dispatcher finds no worker
and puts the first one back. -/
theorem pushed_back_job_exceeds_capacity :
    ∃ s, Reachable .forTest s ∧ AppConfig.forTest.queueCapacity <
      s.shared.queue.length + s.shared.limits.pendingActivations := by
  obtain ⟨s, hs, hp⟩ := Transition.reachable_of_execute (f := State.step .forTest) (i := .new)
    (Schedule.submit 0 (List.range 16) ++ Schedule.dispatch 1 ++
      Schedule.create 48 16 "16" "16" ++ Schedule.consume 49 16 ++ Schedule.dispatch 4)
    (p := fun s => s.shared.queue.length + s.shared.limits.pendingActivations = 17)
    (by decide +kernel)
  have hp := of_decide_eq_true hp
  exact ⟨s, hs, by rw [hp]; decide⟩

/-! ### Notifications -/

/-- The tasks that will call `notify_one` before they end. -/
@[grind]
def Role.owes : Role → Bool
  | .notifying | .completing .. => true
  | .ending cause _ => match cause with
    | .lost => true
    | .stopped | .exited => false
  | .idle | .counting _ | .checking _ | .admitting _ | .enqueueing _ | .popped _ | .assigning _
  | .returning .. | .awaiting | .parked | .reporting _ | .stopping _ => false

def Ledger.CanAssign (config : AppConfig) (L : Ledger) : Prop :=
  L.HasIdle ∧ L.busy < config.globalConcurrency

def Ledger.Runnable (L : Ledger) : Prop := ∃ j ∈ L.queue, (L.flags j).finished = false

/-- From the moment the dispatcher gives up until it is woken: if it could
dispatch now, a notification is stored or still owed. -/
structure Alert (config : AppConfig) (L : Ledger) (role : Tid → Role) : Prop where
  absent : role .dispatcher ≠ .parked → L.notify.waiter = .absent
  present : role .dispatcher = .parked → L.notify.waiter ≠ .absent
  returning : ∀ j, role .dispatcher = .returning j true → L.CanAssign config →
    L.notify.permit = true ∨ ∃ t, (role t).owes = true
  awaiting : role .dispatcher = .awaiting → L.CanAssign config → L.Runnable →
    L.notify.permit = true ∨ ∃ t, (role t).owes = true
  parked : role .dispatcher = .parked → L.notify.waiter = .waiting → L.CanAssign config →
    L.Runnable → ∃ t, (role t).owes = true

/-- A move that makes a dispatch possible leaves its task owing a notification. -/
theorem Move.canAssign (hm : Move config t L r L' r') (h : L'.CanAssign config) :
    L.CanAssign config ∨ r'.owes = true := by
  simp only [Ledger.CanAssign, Ledger.HasIdle] at *
  cases hm <;> first | exact .inl h | exact .inr rfl | skip
  case assign => grind

theorem Move.runnable (hm : Move config t L r L' r') (hk : Known L role) (h : L'.Runnable) :
    L.Runnable ∨ r'.owes = true ∨ ∃ j blocked, r = .returning j blocked := by
  obtain ⟨j, hj, hf⟩ := h
  have hknown := hk.queue
  cases hm <;>
    first | exact .inl ⟨j, hj, hf⟩ | exact .inr (.inl rfl) | exact .inr (.inr ⟨_, _, rfl⟩) | skip
  all_goals exact .inl ⟨j, by grind, by grind⟩

theorem Move.notification (hm : Move config t L r L' r') (hd : r.dispatches = false) :
    L'.notify = L.notify.notifyOne ∨ L'.notify = L.notify ∧ (r.owes = true → r'.owes = true) := by
  cases hm <;> first | exact .inl rfl | exact .inr ⟨rfl, fun h => h⟩ | grind

theorem Alert.of_active {r : Role} (hr : role .dispatcher = r) (hreturning : ∀ j, r ≠ .returning j true)
    (hawaiting : r ≠ .awaiting) (hparked : r ≠ .parked) (hwaiter : L.notify.waiter = .absent) :
    Alert config L role where
  absent _ := hwaiter
  present h := absurd (hr.symm.trans h) hparked
  returning j h := absurd (hr.symm.trans h) (hreturning j)
  awaiting h := absurd (hr.symm.trans h) hawaiting
  parked h := absurd (hr.symm.trans h) hparked

theorem Notify.notifyOne_absent {n : Notify} (h : n.waiter = .absent) :
    n.notifyOne.waiter = .absent := by
  simp [Notify.notifyOne, h]

/-- The dispatcher's own moves. -/
theorem Alert.move_dispatcher (h : Alert config L role) (hr : role .dispatcher = r)
    (hm : Move config .dispatcher L r L' r') : Alert config L' (update role .dispatcher r') := by
  have hself : update role .dispatcher r' .dispatcher = r' := Function.update_self ..
  have habsent : r ≠ .parked → L.notify.waiter = .absent := hr ▸ h.absent
  have howed : r.owes = false → (∃ u, (role u).owes = true) →
      ∃ u, (update role .dispatcher r' u).owes = true := fun hno ⟨u, hu⟩ => by
    refine ⟨u, ?_⟩
    rwa [Function.update_of_ne]
    rintro rfl
    exact Bool.false_ne_true (hno.symm.trans (hr ▸ hu))
  cases hm
  case block j full =>
    have hblocked : ¬ L.CanAssign config := fun hc =>
      full.elim (fun hb => Nat.not_lt.mpr hb hc.2) (fun hi => hi hc.1)
    exact ⟨fun _ => habsent (by simp), by simp, fun _ _ hc => absurd hc hblocked, by simp, by simp⟩
  case empty _ nothing =>
    have hempty : ¬ L.Runnable := by simp [Ledger.Runnable, nothing]
    exact ⟨fun _ => habsent (by simp), by simp, by simp, fun _ _ hq => absurd hq hempty, by simp⟩
  case putBack j =>
    refine ⟨fun _ => habsent (by simp), by simp, by simp, fun _ hc _ => ?_, by simp⟩
    exact (h.returning j hr hc).imp_right (howed rfl)
  case park permit =>
    refine ⟨by simp, by simp, by simp, by simp, fun _ _ hc hq => ?_⟩
    refine howed rfl ((h.awaiting hr hc hq).resolve_left ?_)
    simp [permit]
  case wake => exact .of_active hself (by simp) (by simp) (by simp) rfl
  case notify | announce | announceLoss =>
    exact .of_active hself (by simp) (by simp) (by simp)
      (Notify.notifyOne_absent (habsent (by simp)))
  all_goals exact .of_active hself (by simp) (by simp) (by simp) (habsent (by simp))

theorem Alert.move (h : Alert config L role) (hk : Known L role)
    (hd : ∀ t, (role t).dispatches = true → t = .dispatcher)
    (hr : role t = r) (hm : Move config t L r L' r') : Alert config L' (update role t r') := by
  by_cases ht : t = .dispatcher
  · subst ht
    exact h.move_dispatcher hr hm
  -- Another task: the dispatcher stays where it is, and what it could not do before
  -- it can do now only if that task owes a notification.
  have hself : update role t r' t = r' := Function.update_self ..
  have hother : ∀ u, u = t ∨ update role t r' u = role u := fun u =>
    (em (u = t)).imp_right fun hu => Function.update_of_ne hu ..
  generalize update role t r' = role' at hself hother ⊢
  have hcan := hm.canAssign
  have hrun := hm.runnable hk
  have hnotify := hm.notification (by grind)
  simp only [Notify.notifyOne] at hnotify
  obtain ⟨absent, present, returning, awaiting, parked⟩ := h
  constructor <;> grind

theorem alert (h : ReachableWhen (ledgerSystem config) D o) : Alert config o.ledger o.role :=
  ledger_invariant h ⟨fun _ => rfl, by simp, by simp, by simp, by simp⟩
    fun hr _ hi ht hm => hi.move (known hr) (dispatches_dispatcher hr) ht hm

/-! ### The sleeping dispatcher in the step model -/

theorem State.Quiet.owes_nothing {s : State} (h : s.Quiet) (t : Tid) :
    (s.overview.role t).owes = false := by
  rcases h.role t with hr | hr | hr <;> rw [hr] <;> rfl

/-- No permit can be stored while the dispatcher waits for one, so that need not
be assumed. -/
theorem dispatcher_never_sleeps_on_runnable_work (h : Reachable env s)
    (hparked : (s.task .dispatcher).pc = .dispatchParked)
    (hasleep : s.shared.notify.waiter ≠ .notified) (hquiet : s.Quiet) :
    ¬ ((∃ j ∈ s.shared.queue, (s.shared.inner j).finished = false) ∧
      (∃ w h, s.shared.workers.lookup w = some h ∧ h.currentJob = none) ∧
      s.shared.busy < env.config.globalConcurrency) := by
  rintro ⟨hrunnable, ⟨w, hd, hw, hidle⟩, hbusy⟩
  have halert := alert (Reachable.overview h)
  have hrole : s.overview.role .dispatcher = .parked := by
    simp [State.overview, Task.role, hparked, Pc.role]
  have hwaiter : s.shared.notify.waiter = .waiting := by
    have hpresent : s.shared.notify.waiter ≠ .absent := halert.present hrole
    cases hn : s.shared.notify.waiter
    · exact absurd hn hpresent
    · rfl
    · exact absurd hn hasleep
  have hcan : s.overview.ledger.CanAssign env.config :=
    ⟨⟨w, hd.handle, by simp [State.overview, Shared.ledger, hw], hidle⟩, hbusy⟩
  obtain ⟨t, ht⟩ := halert.parked hrole hwaiter hcan hrunnable
  exact Bool.false_ne_true ((hquiet.owes_nothing t).symm.trans ht)

/-- The dispatcher asleep with job 7 in the queue: there is no idle worker. -/
theorem dispatcher_sleeps_without_workers :
    ∃ s, Reachable .forTest s ∧ s.shared.queue = [7] ∧
      (s.task .dispatcher).pc = .dispatchParked ∧
      ¬ ((∃ j ∈ s.shared.queue, (s.shared.inner j).finished = false) ∧
        (∃ w h, s.shared.workers.lookup w = some h ∧ h.currentJob = none) ∧
        s.shared.busy < AppConfig.forTest.globalConcurrency) := by
  obtain ⟨s, hs, hqueue, hparked, hasleep, hquiet⟩ : ∃ s,
      execute (State.step .forTest) .new (Schedule.submit 0 [7] ++ Schedule.dispatch 12) = some s ∧
      s.shared.queue = [7] ∧ (s.task .dispatcher).pc = .dispatchParked ∧
      s.shared.notify.waiter ≠ .notified ∧ s.Quiet := by
    refine ⟨_, rfl, by decide, rfl, by decide, ?_⟩
    rintro (_ | _ | _ | _ | n) <;> rfl
  have hr := Transition.Reachable.execute .init hs
  exact ⟨s, hr, hqueue, hparked,
    dispatcher_never_sleeps_on_runnable_work hr hparked hasleep hquiet⟩

end SmartC.Executor
