import SmartC.Executor.Completion
import SmartC.Executor.Commands

/-!
# The end of a WebSocket

`websocket_session` ends an activated session with `cancel_execution`, or with
`resource_limit_execution` when that one succeeds, and ignores the result.
`Settled` follows such a call to its return: wherever it stands, the session is
stopped already or the call is on its way to stop it. It loses its way only in
`send_command`, at the three points named by `State.lastStopArrives`.
-/

namespace SmartC.Executor

open Function (update)
open Transition (ReachableWhen)

/-! ### Stopped sessions -/

/-- A cancellation of `j` was sent on a connection after the assignment of `j`. -/
def CancelSent (sh : Shared) (j : Uuid) : Prop :=
  ∃ (c : Uuid) (i k : Nat), i < k ∧ (sh.channel c).sent[i]?.bind ApiMessage.assigned = some j ∧
    (sh.channel c).sent[k]?.bind ApiMessage.cancels = some j

/-- The session is finished, or its worker was told to cancel it. -/
def Stopped (sh : Shared) (j : Uuid) : Prop := (sh.inner j).finished = true ∨ CancelSent sh j

section

variable {env : Env} {s s' : State} {t : Tid} {choice : Choice} {a : Action} {o : Outcome} {j c : Uuid}

theorem exec_sent_grows (ho : exec env t choice sh pc = some o) (hc : c ∈ sh.connections) :
    (sh.channel c).sent <+: (o.shared.channel c).sent := by
  have hupdate : ∀ {c' ch m}, (sh.channel c').trySend m = .ok ch →
      (sh.channel c).sent <+: (update sh.channel c' ch c).sent := by
    intro c' ch m hsend
    by_cases hcc : c = c'
    · subst hcc
      rw [Function.update_self, Channel.trySend_sent hsend]
      exact List.prefix_append ..
    · rw [Function.update_of_ne hcc]
  cases exec_traffic ho with
  | quiet workers channel => rw [channel]
  | named | found | seen | freed | lost => exact List.prefix_rfl
  | sent sent => exact hupdate sent
  | assigned room worker idle sent => exact hupdate sent
  | @registered r capacity c' fresh free =>
    have hcc : c ≠ c' := fun he => fresh (he ▸ hc)
    simp [Shared.setChannel, Shared.setWorker, hcc]

theorem sent_grows (hs : s.step env a = some s') (hc : c ∈ s.shared.connections) :
    (s.shared.channel c).sent <+: (s'.shared.channel c).sent := by
  cases State.step_cases hs with
  | start | resume => exact List.prefix_rfl
  | exec he => exact exec_sent_grows he hc
  | outside ho =>
    cases ho with
    | tick | setClock => exact List.prefix_rfl
    | @channel c' ch sent =>
      by_cases hcc : c = c'
      · subst hcc
        simp [Shared.setChannel, sent]
      · simp [Shared.setChannel, hcc]

theorem bind_getElem?_of_grows {xs ys : List ApiMessage} {f : ApiMessage → Option Uuid}
    (h : xs <+: ys) {i : Nat} (hi : xs[i]?.bind f = some j) : ys[i]?.bind f = some j := by
  obtain ⟨m, hm, hj⟩ := Option.bind_eq_some_iff.mp hi
  obtain ⟨rest, rfl⟩ := h
  obtain ⟨hlt, -⟩ := List.getElem?_eq_some_iff.mp hm
  exact Option.bind_eq_some_iff.mpr ⟨m, by rwa [List.getElem?_append_left hlt], hj⟩

theorem connection_of_assigned (hr : Reachable env s) {i : Nat}
    (hi : (s.shared.channel c).sent[i]?.bind ApiMessage.assigned = some j) :
    c ∈ s.shared.connections := by
  by_contra hc
  have hnone : (s.shared.channel c).assignedJobs = [] := (wired (Reachable.overview hr)).fresh c hc
  obtain ⟨m, hm, hj⟩ := Option.bind_eq_some_iff.mp hi
  have hmem : j ∈ (s.shared.channel c).assignedJobs :=
    List.mem_filterMap.mpr ⟨m, List.mem_of_getElem? hm, hj⟩
  simp [hnone] at hmem

theorem CancelSent.step (hr : Reachable env s) (h : CancelSent s.shared j)
    (hs : s.step env a = some s') : CancelSent s'.shared j := by
  obtain ⟨c, i, k, hik, hi, hk⟩ := h
  have hgrows := sent_grows hs (connection_of_assigned hr hi)
  exact ⟨c, i, k, hik, bind_getElem?_of_grows hgrows hi, bind_getElem?_of_grows hgrows hk⟩

theorem Stopped.step (hr : Reachable env s) (h : Stopped s.shared j) (hs : s.step env a = some s') :
    Stopped s'.shared j :=
  h.imp (finished_step hr · hs) (·.step hr hs)

theorem Move.assignedWorker_mono (hm : Move config t L r L' r') (hk : Known L role)
    (hj : (L.flags j).assignedWorker.isSome = true) :
    (L'.flags j).assignedWorker.isSome = true ∨ (L'.flags j).finished = true := by
  have hnew := hk.flags j
  cases hm
  case insert | consume | activate | release | finish | assign => grind [Flags.new]
  all_goals exact .inl hj

theorem assignedWorker_step (hr : Reachable env s)
    (hj : (s.shared.inner j).assignedWorker.isSome = true) (hs : s.step env a = some s') :
    (s'.shared.inner j).assignedWorker.isSome = true ∨ (s'.shared.inner j).finished = true := by
  rcases State.step_overview (Reachable.orderly hr) hs with heq | ⟨t, _, _, r', hm, _⟩
  · exact .inl ((congrArg (fun o => (o.ledger.flags j).assignedWorker.isSome = true) heq).mpr hj)
  · exact hm.assignedWorker_mono (known (Reachable.overview hr)) hj

end

/-! ### The last call of a socket -/

/-- The session that must be stopped when the call under this frame returns, and
whether it must be stopped even if the call fails. -/
def Frame.pledge : Frame → Option (Uuid × Bool)
  | .websocketReturn j true => some (j, true)
  | .websocketRateLimited j => some (j, false)
  | _ => none

def Task.pledge (task : Task) : Option (Uuid × Bool) := task.frames.getLast?.bind Frame.pledge

def Pc.approaches (sh : Shared) (j : Uuid) (final : Bool) : Pc → Prop
  | .stop _ k | .stopQueue _ k | .completeSession k _ .finish | .unregisterWorkerSession k _
  | .unregisterWorkerSend k _ => k = j
  | .sendCommand k action =>
    k = j ∧ (∃ reason, action = .cancel reason) ∧ (sh.inner j).assignedWorker.isSome = true
  | .sendCommandWorker k action _ => k = j ∧ ∃ reason, action = .cancel reason
  | .sendCommandSend k action _ c =>
    k = j ∧ (∃ reason, action = .cancel reason) ∧ j ∈ (sh.channel c).assignedJobs
  | .unregisterWorker .. => final = true
  | .unregisterWorkerCount job _ => job = some j
  | _ => False

def Task.failing (task : Task) : Prop :=
  .sendCommandClosed ∈ task.frames ∨ task.frames.length = 1 ∧ ∃ e, task.pc = .done (.apiError e)

def Pc.settles : Pc → Option Uuid
  | .done (.websocket j true) | .websocketClose j true => some j
  | _ => none

structure Settled (sh : Shared) (task : Task) : Prop where
  returned : ∀ j, task.pc.settles = some j → Stopped sh j
  pledged : ∀ j final, task.pledge = some (j, final) →
    Stopped sh j ∨ (final = false ∧ task.failing) ∨ task.pc.approaches sh j final

/-- Whether the last stop of a socket, on a session that is not finished, finds in
`send_command` the worker that has the session as its current job, room in that
worker's channel and, where the channel is closed, that worker still registered. -/
def State.lastStopArrives (s : State) : Action → Bool
  | .run t _ =>
    match (s.task t).pledge with
    | none => true
    | some (j, final) =>
      (s.shared.inner j).finished ||
        match (s.task t).pc with
        | .sendCommandWorker _ _ w =>
          match s.shared.workers.lookup w with
          | none => !final
          | some h => h.currentJob == some j
        | .sendCommandSend _ _ _ c =>
          !final || (s.shared.channel c).closed ||
            decide ((s.shared.channel c).sent.length - (s.shared.channel c).taken <
              (s.shared.channel c).capacity)
        | .unregisterWorker w c _ =>
          !final || (s.shared.workers.lookup w).any fun h =>
            h.connectionId == c && h.currentJob == some j
        | _ => true
  | _ => true

section

variable {env : Env} {s s' : State} {t : Tid} {choice : Choice} {a : Action} {o : Outcome}
  {sh : Shared} {f : Frame} {j : Uuid} {final : Bool}

theorem exec_pledge (h : exec env t choice sh pc = some o) :
    o.pc.settles = none ∧ o.frame.bind Frame.pledge = none ∨
      o.frame = none ∧ o.shared = sh ∧ o.pc.settles = pc.settles ∨
      ∃ kind j final, o.pc = .stop kind j ∧ o.frame.bind Frame.pledge = some (j, final) := by
  cases exec_branch h with
  | @failed pc r at_ error => cases r <;> first | exact .inl ⟨rfl, rfl⟩ | cases error
  | closedAfterStop => exact .inr (.inl ⟨rfl, rfl, rfl⟩)
  | flooded | disconnected => exact .inr (.inr ⟨_, _, _, rfl, rfl⟩)
  | _ => exact .inl ⟨rfl, rfl⟩

theorem Task.mem_arcs_of_pledge {task : Task} (h : task.pledge = some (j, final)) :
    j ∈ task.arcs := by
  obtain ⟨f, hf, hpledge⟩ := Option.bind_eq_some_iff.mp h
  refine List.mem_append_right _ (List.mem_flatMap.mpr ⟨f, List.mem_of_getLast? hf, ?_⟩)
  simp only [Frame.pledge] at hpledge
  split at hpledge <;> cases hpledge <;> exact List.mem_singleton_self _

theorem sendCommandWorker_approaches (hp : Placed sh.ledger role place)
    (hc : (sh.inner j).finished = true ∨ (match sh.workers.lookup w with
      | none => !final
      | some h => h.currentJob == some j) = true)
    (ho : sendCommandWorker sh j (.cancel reason) w = some o) :
    (o.shared = sh ∧ o.frame = none) ∧ (Stopped sh j ∨
      (final = false ∧ ∃ e, o.pc = .done (.apiError e)) ∨ o.pc.approaches sh j final) := by
  simp only [sendCommandWorker, goto, fail] at ho
  split at ho <;> rename_i hw <;> cases ho <;> refine ⟨⟨rfl, rfl⟩, ?_⟩
  · rcases hc with hc | hc
    · exact .inl (.inl hc)
    · exact .inr (.inl ⟨by simpa [hw] using hc, _, rfl⟩)
  · rename_i hd
    rcases hc with hc | hc
    · exact .inl (.inl hc)
    · have hcurrent : hd.currentJob = some j := by simpa [hw] using hc
      have hplace := hp.current w hd.handle j (by simp [Shared.ledger, hw]) hcurrent
      exact .inr (.inr ⟨rfl, ⟨reason, rfl⟩, hp.mem_assigned.mpr hplace⟩)

theorem CancelSent.of_trySend (hj : j ∈ (sh.channel c).assignedJobs)
    (hs : (sh.channel c).trySend (.command ⟨j, some (.cancel reason)⟩) = .ok ch) :
    CancelSent (sh.setChannel c ch) j := by
  obtain ⟨m, hm, hj⟩ := List.mem_filterMap.mp hj
  obtain ⟨i, hi, rfl⟩ := List.getElem_of_mem hm
  have hsent : ((sh.setChannel c ch).channel c).sent =
      (sh.channel c).sent ++ [.command ⟨j, some (.cancel reason)⟩] := by
    simp [Shared.setChannel, Channel.trySend_sent hs]
  refine ⟨c, i, (sh.channel c).sent.length, hi, ?_, ?_⟩
  · rw [hsent, List.getElem?_append_left hi, List.getElem?_eq_getElem hi]
    exact hj
  · rw [hsent, List.getElem?_append_right le_rfl, Nat.sub_self]
    rfl

theorem frames_of_pledge {frames : List Frame} (hb : Frame.base .command frames = some b)
    (hp : frames.getLast?.bind Frame.pledge = some (j, final)) : frames.length = 1 := by
  rcases frames with _ | ⟨f, _ | ⟨g, frames⟩⟩
  · simp at hp
  · rfl
  · -- Nothing calls a socket or the maintenance task, and a stream is the bottom.
    cases f <;> simp only [Frame.base, Frame.callee, Frame.caller, reduceCtorEq, ↓reduceIte] at hb
    all_goals cases g <;> simp only [reduceCtorEq, ↓reduceIte] at hb
    rw [Frame.base_stream hb] at hp
    cases hp

/-- One step of a socket's last call. -/
theorem approaches_exec (hr : Reachable env s) (hc : s.lastStopArrives (.run t choice) = true)
    (hpledge : (s.task t).pledge = some (j, final))
    (h : (s.task t).pc.approaches s.shared j final)
    (ho : exec env t choice s.shared (s.task t).pc = some o) :
    Stopped o.shared j ∨
      (final = false ∧ Task.failing ⟨o.pc, o.frame.toList ++ (s.task t).frames⟩) ∨
      o.pc.approaches o.shared j final := by
  obtain ⟨place, hplaced⟩ := placed (Reachable.overview hr)
  simp only [State.lastStopArrives, hpledge, Bool.or_eq_true] at hc
  -- the stop itself has called `send_command`, so that an error of the one is that of the other
  have hlength : (s.task t).pc.group = some .command → (s.task t).frames.length = 1 := fun hg => by
    obtain ⟨g, b, hpc, hb, -⟩ := (Reachable.orderly hr).typed t
    obtain rfl : .command = g := by simpa [hg] using hpc.resolve_left (by simp [hg])
    exact frames_of_pledge hb hpledge
  cases hpc : (s.task t).pc <;> rw [hpc] at h hc ho hlength <;> try exact h.elim
  case stop kind k =>
    obtain rfl := h
    simp only [exec, stop, goto] at ho
    repeat' split at ho
    all_goals cases ho
    · rename_i hfinished
      exact .inl (.inl hfinished)
    · exact .inr (.inr rfl)
    · rename_i hw
      exact .inr (.inr ⟨rfl, ⟨_, rfl⟩, by simp [hw]⟩)
  case stopQueue kind k =>
    obtain rfl := h
    simp only [exec, stopQueue, call] at ho
    split at ho <;> cases ho
    exact .inr (.inr rfl)
  case sendCommand k action =>
    obtain ⟨rfl, hcancel, hw⟩ := h
    simp only [exec, sendCommand, goto, fail] at ho
    repeat' split at ho
    all_goals cases ho
    · rename_i hnone
      simp [hnone] at hw
    · exact .inr (.inr ⟨rfl, hcancel⟩)
  case sendCommandWorker k action w =>
    obtain ⟨rfl, reason, rfl⟩ := h
    obtain ⟨⟨hshared, hframe⟩, hcases⟩ := sendCommandWorker_approaches hplaced hc ho
    rw [hshared, hframe]
    exact hcases.imp_right (Or.imp_left (And.imp_right fun he => .inr ⟨hlength rfl, he⟩))
  case sendCommandSend k action w c =>
    obtain ⟨rfl, ⟨reason, rfl⟩, hj⟩ := h
    simp only [exec, sendCommandSend, goto, fail, call] at ho
    split at ho <;> rename_i hsend <;> cases ho
    · exact .inl (.inr (.of_trySend hj hsend))
    -- a full channel is met only by a stop that is followed by another one
    · rcases hc with hc | hc
      · exact .inl (.inl hc)
      · have hfinal : final = false := by
          simp only [Channel.trySend] at hsend
          grind
        exact .inr (.inl ⟨hfinal, .inr ⟨hlength rfl, _, rfl⟩⟩)
    -- a closed channel: the worker is unregistered, and its session completed
    · cases final with
      | true => exact .inr (.inr rfl)
      | false => exact .inr (.inl ⟨rfl, .inl (by simp)⟩)
  case unregisterWorker w c detail =>
    obtain rfl := h
    rcases hc with hc | hc
    · simp only [exec, unregisterWorker, goto] at ho
      repeat' split at ho
      all_goals cases ho
      all_goals exact .inl (.inl hc)
    obtain ⟨hd, hw, hmatch⟩ : ∃ hd, s.shared.workers.lookup w = some hd ∧
        (hd.connectionId = c ∧ hd.currentJob = some j) := by
      simpa [Option.any_eq_true] using hc
    simp only [exec, unregisterWorker, goto, hw, hmatch.1, ↓reduceIte] at ho
    cases ho
    exact .inr (.inr hmatch.2)
  case unregisterWorkerCount job detail =>
    obtain rfl := h
    cases ho
    exact .inr (.inr rfl)
  case unregisterWorkerSession k detail =>
    obtain rfl := h
    simp only [exec, unregisterWorkerSession, goto] at ho
    split at ho <;> cases ho
    · exact .inr (.inr rfl)
    · rename_i hgone
      have hknown := (Reachable.orderly hr).arcs t k (Task.mem_arcs_of_pledge hpledge)
      exact .inl (.inl (gone_finished (Reachable.overview hr) hgone hknown))
  case unregisterWorkerSend k detail =>
    obtain rfl := h
    cases ho
    exact .inr (.inr rfl)
  case completeSession k e stage =>
    cases stage <;> try exact h.elim
    obtain rfl := h
    simp only [exec, completeSession, goto] at ho
    repeat' split at ho
    all_goals cases ho
    · rename_i hfinished
      exact .inl (.inl hfinished)
    · exact .inl (.inl (by simp [Shared.setInner]))

theorem approaches_step (hr : Reachable env s) (hs : s.step env a = some s') {pc : Pc}
    (h : pc.approaches s.shared j final) :
    Stopped s'.shared j ∨ pc.approaches s'.shared j final := by
  cases pc
  case sendCommand k action =>
    obtain ⟨rfl, hcancel, hw⟩ := h
    rcases assignedWorker_step hr hw hs with hw | hfinished
    · exact .inr ⟨rfl, hcancel, hw⟩
    · exact .inl (.inl hfinished)
  case sendCommandSend k action w c =>
    obtain ⟨rfl, hcancel, hj⟩ := h
    exact .inr ⟨rfl, hcancel, assignedJobs_step hr hj hs⟩
  case completeSession k e stage => cases stage <;> exact .inr h
  all_goals exact .inr h

theorem Settled.frame (hr : Reachable env s) (hs : s.step env a = some s') {task : Task}
    (h : Settled s.shared task) : Settled s'.shared task where
  returned k hk := (h.returned k hk).step hr hs
  pledged k final hk := by
    rcases h.pledged k final hk with hstop | hfail | happroach
    · exact .inl (hstop.step hr hs)
    · exact .inr (.inl hfail)
    · exact (approaches_step hr hs happroach).imp_right .inr

theorem Frame.resume_settles (h : (f.resume r).settles = some j) :
    (Pc.done r).settles = some j ∨ f.pledge = some (j, true) ∨
      f.pledge = some (j, false) ∧ r.isOk = true := by
  cases f <;> simp only [Frame.resume] at h
  case websocketReturn k activated =>
    cases activated <;> cases h
    exact .inr (.inl rfl)
  case websocketRateLimited k =>
    cases hok : r.isOk <;> rw [hok] at h <;> cases h
    exact .inr (.inr ⟨rfl, rfl⟩)
  all_goals
    repeat' split at h
    all_goals first | exact .inl h | cases h

theorem Frame.base_of_pledge {frames : List Frame} (hb : Frame.base f.caller frames = some b)
    (hp : f.pledge = some (j, final)) : frames = [] := by
  have hcaller : f.caller = .websocket := by
    cases f <;> first | rfl | cases hp
  cases frames with
  | nil => rfl
  | cons g frames => cases g <;> simp [hcaller, Frame.base, Frame.callee] at hb

theorem Settled.resume {frames : List Frame} (hb : Frame.base f.caller frames = some b)
    (h : Settled sh ⟨.done r, f :: frames⟩) : Settled sh ⟨f.resume r, frames⟩ := by
  refine ⟨fun j hj => ?_, fun j final hj => ?_⟩
  · rcases Frame.resume_settles hj with hdone | hf | ⟨hf, hok⟩
    · exact h.returned j hdone
    · obtain rfl := Frame.base_of_pledge hb hf
      rcases h.pledged j true hf with hstop | ⟨hfalse, -⟩ | happroach
      · exact hstop
      · cases hfalse
      · exact happroach.elim
    · obtain rfl := Frame.base_of_pledge hb hf
      rcases h.pledged j false hf with hstop | ⟨-, hclosed | ⟨-, e, he⟩⟩ | happroach
      · exact hstop
      · obtain rfl := List.mem_singleton.mp hclosed
        cases hf
      · cases he
        cases hok
      · exact happroach.elim
  · have hne : frames ≠ [] := by
      rintro rfl
      cases hj
    have hlast : Task.pledge ⟨.done r, f :: frames⟩ = some (j, final) := by
      rw [Task.pledge, List.getLast?_cons_of_ne_nil hne]
      exact hj
    rcases h.pledged j final hlast with hstop | ⟨hfinal, hclosed | ⟨hlength, -⟩⟩ | happroach
    · exact .inl hstop
    · refine .inr (.inl ⟨hfinal, ?_⟩)
      rcases List.mem_cons.mp hclosed with rfl | hclosed
      · exact .inr ⟨frames_of_pledge hb hj, _, rfl⟩
      · exact .inl hclosed
    · simp only [List.length_cons, Nat.add_eq_right, List.length_eq_zero_iff] at hlength
      exact absurd hlength hne
    · exact happroach.elim

theorem Task.pledge_append {pc : Pc} {frames : List Frame} {frame : Option Frame}
    (h : Task.pledge ⟨pc, frame.toList ++ frames⟩ = some (j, final)) :
    frames.getLast?.bind Frame.pledge = some (j, final) ∨
      frame.bind Frame.pledge = some (j, final) := by
  cases frame with
  | none => exact .inl h
  | some f =>
    cases frames with
    | nil => exact .inr h
    | cons g frames => exact .inl (by simpa [Task.pledge, List.getLast?_cons_cons] using h)

theorem Settled.exec (hr : Reachable env s) (hc : s.lastStopArrives (.run t choice) = true)
    (h : Settled s.shared (s.task t)) (ho : exec env t choice s.shared (s.task t).pc = some o)
    (hs : s.step env (.run t choice) = some s') (hshared : s'.shared = o.shared) :
    Settled o.shared ⟨o.pc, o.frame.toList ++ (s.task t).frames⟩ := by
  have hpledged : ∀ j final, (s.task t).pledge = some (j, final) → Stopped o.shared j ∨
      (final = false ∧ Task.failing ⟨o.pc, o.frame.toList ++ (s.task t).frames⟩) ∨
      o.pc.approaches o.shared j final := by
    intro j final hj
    rcases h.pledged j final hj with hstop | ⟨hfinal, hclosed | ⟨-, e, he⟩⟩ | happroach
    · exact .inl (hshared ▸ hstop.step hr hs)
    · exact .inr (.inl ⟨hfinal, .inl (List.mem_append_right _ hclosed)⟩)
    · rw [he] at ho
      cases ho
    · exact approaches_exec hr hc hj happroach ho
  rcases exec_pledge ho with ⟨hsettles, hframe⟩ | ⟨hframe, hsame, hsettles⟩ |
    ⟨kind, k, final, hpc, hframe⟩
  · refine ⟨fun j hj => by simp [hsettles] at hj, fun j final hj => ?_⟩
    rcases Task.pledge_append hj with hj | hj
    · exact hpledged j final hj
    · simp [hframe] at hj
  · refine ⟨fun j hj => ?_, fun j final hj => ?_⟩
    · rw [hsame]
      exact h.returned j (hsettles ▸ hj)
    · rcases Task.pledge_append hj with hj | hj
      · exact hpledged j final hj
      · simp [hframe] at hj
  · refine ⟨fun j hj => by simp [hpc, Pc.settles] at hj, fun j final' hj => ?_⟩
    rcases Task.pledge_append hj with hj | hj
    · exact hpledged j final' hj
    · obtain ⟨rfl, rfl⟩ : k = j ∧ final = final' := by simpa [hframe] using hj
      rw [hpc]
      exact .inr (.inr rfl)

theorem Op.start_settled (sh : Shared) (op : Op) : Settled sh op.start := by
  cases op <;> exact ⟨nofun, nofun⟩

end

theorem settled (h : ReachableWhen (system env) (fun s a => s.lastStopArrives a = true) s) :
    ∀ t, Settled s.shared (s.task t) := by
  refine h.invariant (I := fun s => ∀ t, Settled s.shared (s.task t)) ?_ ?_
  · rintro (_ | n) <;> exact ⟨nofun, nofun⟩
  intro s s' a hr hi hc hs u
  have hframe : Settled s'.shared (s.task u) := (hi u).frame hr.reachable hs
  cases State.step_cases hs with
  | @start n op vacant known =>
    by_cases hu : u = .task n
    · subst hu
      simpa [State.setTask] using Op.start_settled s.shared op
    · simpa [State.setTask, hu] using hframe
  | @resume t choice r f frames at_ =>
    by_cases hu : u = t
    · subst hu
      obtain ⟨g, b, -, hb, -⟩ := (Reachable.orderly hr.reachable).typed u
      rw [at_] at hb
      simpa [State.setTask] using (at_ ▸ hi u).resume (Frame.base_cons hb)
    · simpa [State.setTask, hu] using hframe
  | @exec t choice o he =>
    by_cases hu : u = t
    · subst hu
      simpa using (hi u).exec hr.reachable hc he hs rfl
    · simpa [hu] using hframe
  | outside ho => exact hframe

/-! ### Disconnected browsers -/

theorem disconnected_execution_is_stopped
    (h : ReachableWhen (system env) (fun s a => s.lastStopArrives a = true) s) (t : Tid) (j : Uuid)
    (hreturned : (s.task t).pc = .done (.websocket j true)) : Stopped s.shared j :=
  (settled h t).returned j (by rw [hreturned]; rfl)

def Pc.isReturned (j : Uuid) : Pc → Bool
  | .done (.websocket k true) => k == j
  | _ => false

theorem Pc.eq_of_isReturned {pc : Pc} (h : pc.isReturned j = true) :
    pc = .done (.websocket j true) := by
  simp only [Pc.isReturned] at h
  split at h
  · rw [eq_of_beq h]
  · cases h

namespace Schedule

def connect (n : Nat) (j : Uuid) : List Action :=
  .start n (.executionWebsocket j "ticket") :: go n 16

def resizes (n : Nat) : Nat → List Action
  | 0 => []
  | k + 1 =>
    .tick (seconds 1 / 16) ::
      .run (.task n) (.incoming (some (.text 40 (.ok (.resize 80 24)))) true) :: go n 5 ++ resizes n k

def disconnect (n : Nat) : List Action := .run (.task n) (.incoming none true) :: go n 6

end Schedule

/-- A browser disconnects while its job runs, and the worker is sent a cancellation. -/
theorem running_execution_is_cancelled :
    ∃ s, ReachableWhen (system .forTest) (fun s a => s.lastStopArrives a = true) s ∧
      (s.task (.task 2)).pc = .done (.websocket 7 true) ∧ Stopped s.shared 7 := by
  obtain ⟨s, hs, hp⟩ := Transition.reachableWhen_of_execute (f := State.step .forTest) (i := .new)
    (c := State.lastStopArrives)
    (Schedule.register 0 "w" 100 ++ Schedule.create 1 7 "v" "i" ++ Schedule.connect 2 7 ++
      Schedule.assign "w" ++ Schedule.disconnect 2)
    (p := fun s => (s.task (.task 2)).pc.isReturned 7) (by decide)
  have hreturned := Pc.eq_of_isReturned hp
  exact ⟨s, hs, hreturned, disconnected_execution_is_stopped hs (.task 2) 7 hreturned⟩

/-- The browser fills the worker's channel behind the assignment while the worker
reads nothing, and disconnects: the last cancellation finds no room, its error is
ignored, and the job runs on. -/
theorem full_channel_keeps_execution_running :
    ∃ s, Reachable .forTest s ∧ (s.task (.task 2)).pc = .done (.websocket 7 true) ∧
      ¬ Stopped s.shared 7 := by
  obtain ⟨s, hs, hp⟩ := Transition.reachable_of_execute (f := State.step .forTest) (i := .new)
    (Schedule.register 0 "w" 100 ++ Schedule.create 1 7 "v" "i" ++ Schedule.connect 2 7 ++
      Schedule.assign "w" ++ Schedule.resizes 2 63 ++ Schedule.disconnect 2)
    (p := fun s => (s.task (.task 2)).pc.isReturned 7 && !(s.shared.inner 7).finished &&
      s.shared.connections = {100} &&
      (s.shared.channel 100).sent.all fun m => m.cancels.isNone) (by decide +kernel)
  simp only [Bool.and_eq_true, Bool.not_eq_true', decide_eq_true_eq, List.all_eq_true] at hp
  obtain ⟨⟨⟨hreturned, hlive⟩, hconnections⟩, hnone⟩ := hp
  refine ⟨s, hs, Pc.eq_of_isReturned hreturned, ?_⟩
  rintro (hfinished | ⟨c, i, k, -, hi, hk⟩)
  · simp [hlive] at hfinished
  · obtain rfl : c = 100 := by simpa [hconnections] using connection_of_assigned hs hi
    obtain ⟨m, hm, hcancels⟩ := Option.bind_eq_some_iff.mp hk
    have hm := hnone m (List.mem_of_getElem? hm)
    simp [hcancels] at hm

end SmartC.Executor
