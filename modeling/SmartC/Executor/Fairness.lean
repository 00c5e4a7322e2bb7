import SmartC.Executor.Dispatch
import SmartC.Executor.Limits

/-!
# First come, first served

`activate_session` puts a job at the end of the queue. The dispatcher takes out
the first one and puts it back in front when no worker can have it, and a
cancellation takes a job out wherever it stands. `Overview.line` is the queue
behind the job in the dispatcher's hands. No move changes the order of the line,
so the jobs go to the workers in the order in which they were enqueued.
-/

namespace SmartC.Executor

open Function (update)
open Transition (RecordedWhen)

def Role.takenOut : Role → Option Uuid
  | .popped j | .assigning j | .returning j _ => some j
  | .idle | .counting _ | .checking _ | .admitting _ | .enqueueing _ | .notifying | .awaiting
  | .parked | .reporting _ | .stopping _ | .ending .. | .completing .. => none

def Overview.line (o : Overview) : List Uuid :=
  (o.role .dispatcher).takenOut.toList ++ o.ledger.queue

inductive Turn
  | enqueued (j : Uuid)
  | assigned (j : Uuid)
  deriving DecidableEq, Repr

/-- The push of `activate_session`, and the `try_send` of the dispatcher that succeeds. -/
def Role.turn : Role → Role → List Turn
  | .enqueueing j, .notifying => [.enqueued j]
  | .assigning j, .idle => [.assigned j]
  | _, _ => []

def State.turn (env : Env) (s : State) : Action → List Turn
  | .run t choice =>
    (s.step env (.run t choice)).elim [] fun s' => Role.turn (s.task t).role (s'.task t).role
  | _ => []

/-- The jobs that were enqueued, in the order in which they were. -/
def arrivals (log : List Turn) : List Uuid :=
  log.filterMap fun turn => match turn with
    | .enqueued j => some j
    | .assigned _ => none

def services (log : List Turn) : List Uuid :=
  log.filterMap fun turn => match turn with
    | .enqueued _ => none
    | .assigned j => some j

section

variable {config : AppConfig} {env : Env} {C : State → Action → Prop} {s s' : State} {a : Action}
  {L L' : Ledger} {role : Tid → Role} {t : Tid} {r r' : Role} {j : Uuid} {o : Overview}
  {log : List Turn}

theorem arrivals_append (log turns : List Turn) :
    arrivals (log ++ turns) = arrivals log ++ arrivals turns := List.filterMap_append

theorem services_append (log turns : List Turn) :
    services (log ++ turns) = services log ++ services turns := List.filterMap_append

/-! ### The line -/

inductive LineStep : List Turn → List Uuid → List Uuid → Prop
  | left {line line'} (kept : line'.Sublist line) : LineStep [] line line'
  | joined {line j} : LineStep [.enqueued j] line (line ++ [j])
  | served {line j} : LineStep [.assigned j] (j :: line) line

theorem takenOut_update (r' : Role) (hr : role t = r) (h : r'.takenOut = r.takenOut) :
    (update role t r' .dispatcher).takenOut = (role .dispatcher).takenOut := by
  by_cases ht : t = .dispatcher
  · subst ht
    rw [Function.update_self, h, hr]
  · rw [Function.update_of_ne (Ne.symm ht)]

theorem line_of_role (L L' : Ledger) (r' : Role)
    (hd : ∀ u, (role u).dispatches = true → u = .dispatcher) (hr : role t = r)
    (hj : r.takenOut = some j) : Overview.line ⟨L, role⟩ = j :: L.queue ∧
      Overview.line ⟨L', update role t r'⟩ = r'.takenOut.toList ++ L'.queue := by
  have hdispatches : r.dispatches = true := by cases r <;> first | rfl | cases hj
  obtain rfl := hd t (hr ▸ hdispatches)
  simp [Overview.line, hr, hj]

/-- A job joins the line at its end, or leaves it in front for a worker, or the line loses jobs
and keeps its order. -/
theorem Move.line (hd : ∀ u, (role u).dispatches = true → u = .dispatcher) (hr : role t = r)
    (hm : Move config t L r L' r') :
    LineStep (r.turn r') (Overview.line ⟨L, role⟩) (Overview.line ⟨L', update role t r'⟩) := by
  -- What a move with the same queue and the same job in the dispatcher's hands does.
  have hsame : L'.queue = L.queue → r'.takenOut = r.takenOut →
      LineStep [] (Overview.line ⟨L, role⟩) (Overview.line ⟨L', update role t r'⟩) := by
    intro hqueue htaken
    simp only [Overview.line, hqueue, takenOut_update r' hr htaken]
    exact .left (.refl _)
  have hline {j} (hj : r.takenOut = some j) := line_of_role L L' r' hd hr hj
  cases hm
  case enqueue j =>
    have htaken := takenOut_update .notifying hr rfl
    rw [Overview.line, Overview.line, htaken, ← List.append_assoc]
    exact .joined
  case unqueue j =>
    have htaken := takenOut_update (.ending .stopped j) hr rfl
    rw [Overview.line, Overview.line, htaken]
    exact .left (.append (.refl _) List.filter_sublist)
  case pop j rest ht head =>
    subst ht
    refine .left ?_
    simp [Overview.line, hr, Role.takenOut, head]
  case assign j w h room worker idle =>
    rw [(hline rfl).1, (hline rfl).2]
    exact .served
  case drop | putBack | retry =>
    refine .left ?_
    rw [(hline rfl).1, (hline rfl).2]
    simp [Role.takenOut]
  all_goals exact hsame rfl rfl

/-- The jobs that were passed on, followed by the line, keep the order of arrival. -/
theorem LineStep.order {turns : List Turn} {line line' : List Uuid} (h : LineStep turns line line')
    (hold : (services log ++ line).Sublist (arrivals log)) :
    (services (log ++ turns) ++ line').Sublist (arrivals (log ++ turns)) := by
  rw [arrivals_append, services_append]
  cases h with
  | left kept => simpa [arrivals, services] using (List.Sublist.append (.refl _) kept).trans hold
  | @joined _ j => simpa [arrivals, services] using hold.append (.refl [j])
  | served => simpa [arrivals, services] using hold

/-! ### Nobody who waits is forgotten -/

/-- Job `j` has been enqueued: its session is connected and no activation has it any more. -/
def Joined (L : Ledger) (role : Tid → Role) (j : Uuid) : Prop :=
  (L.flags j).socketConnected = true ∧ ∀ t, role t ≠ .enqueueing j

theorem Joined.move (h : Joined L role j) (hk : Known L role) (hf : (L.flags j).Ok)
    (hm : Move config t L r L' r') : Joined L' (update role t r') j := by
  obtain ⟨hconnected, hnone⟩ := h
  have hnew := hk.flags j
  have hpending : (L.flags j).pendingActivation = false := by
    by_contra hpending
    have hunconnected := (hf.pending (Bool.eq_true_of_not_eq_false hpending)).2
    rw [hconnected] at hunconnected
    cases hunconnected
  constructor
  · cases hm
    case insert | consume | activate | finish | release | assign => grind
    all_goals exact hconnected
  · intro u
    by_cases hu : u = t
    · subst hu
      rw [Function.update_self]
      cases hm
      case activate k known free pending live =>
        rintro ⟨⟩
        rw [hpending] at pending
        cases pending
      all_goals exact Role.noConfusion
    · rw [Function.update_of_ne hu]
      exact hnone u

theorem joined_of_push (ho : Transition.Reachable (ledgerSystem config) ⟨L, role⟩)
    (hr : role t = .enqueueing j) (hm : Move config t L (.enqueueing j) L' r') :
    Joined L' (update role t r') j := by
  have hholds : (role t).holds = some j := by rw [hr]; rfl
  have hconnected := holds_connected ho hholds
  obtain ⟨place, hplaced⟩ := placed ho
  cases hm
  refine ⟨hconnected, fun u hu => ?_⟩
  by_cases hut : u = t
  · subst hut
    rw [Function.update_self] at hu
    cases hu
  · rw [Function.update_of_ne hut] at hu
    have hother : place j = .held u := (hplaced.held u j).1 (by simp only [hu, Role.holds])
    exact hut (Place.held.inj (hother.symm.trans ((hplaced.held t j).1 hholds)))

theorem Move.newly_assigned {c : Uuid} (hm : Move config t L r L' r') (hj : j ∈ L'.assigned c) :
    j ∈ L.assigned c ∨ j ∈ services (r.turn r') := by
  cases hm
  case assign =>
    simp only [Role.turn, services]
    grind
  case register => grind
  all_goals exact .inl hj

theorem arrivals_turn (r r' : Role) :
    arrivals (r.turn r') = [] ∨ ∃ j, r = .enqueueing j ∧ arrivals (r.turn r') = [j] := by
  unfold Role.turn
  split
  · exact .inr ⟨_, rfl, rfl⟩
  · exact .inl rfl
  · exact .inl rfl

structure InLine (o : Overview) (log : List Turn) : Prop where
  once : (arrivals log).Nodup
  order : (services log ++ o.line).Sublist (arrivals log)
  joined : ∀ j ∈ arrivals log, Joined o.ledger o.role j
  assigned : ∀ c, ∀ j ∈ o.ledger.assigned c, j ∈ services log

theorem InLine.move (h : InLine ⟨L, role⟩ log)
    (ho : Transition.Reachable (ledgerSystem config) ⟨L, role⟩) (hr : role t = r)
    (hm : Move config t L r L' r') : InLine ⟨L', update role t r'⟩ (log ++ r.turn r') where
  once := by
    rw [arrivals_append]
    rcases arrivals_turn r r' with hnil | ⟨j, rfl, hone⟩
    · rw [hnil, List.append_nil]
      exact h.once
    · rw [hone]
      refine h.once.append (List.nodup_singleton j) (List.disjoint_singleton.2 fun hold => ?_)
      exact (h.joined j hold).2 t hr
  order := (hm.line (dispatches_dispatcher ho) hr).order h.order
  joined j hj := by
    rw [arrivals_append] at hj
    rcases List.mem_append.1 hj with hold | hnew
    · exact (h.joined j hold).move (known ho) (flags_ok ho j) hm
    · rcases arrivals_turn r r' with hnil | ⟨i, rfl, hone⟩
      · rw [hnil] at hnew
        cases hnew
      · rw [hone, List.mem_singleton] at hnew
        subst hnew
        exact joined_of_push ho hr hm
  assigned c j hj := by
    rw [services_append]
    exact List.mem_append.2 ((hm.newly_assigned hj).imp_left (h.assigned c j))

theorem Overview.eq_of_role (h : o.role = role) : o = ⟨o.ledger, role⟩ := h ▸ rfl

theorem State.step_turn (hr : Reachable env s) (hs : s.step env a = some s') :
    s'.overview = s.overview ∧ s.turn env a = [] ∨
      ∃ t r', Move env.config t s.overview.ledger (s.overview.role t) s'.overview.ledger r' ∧
        s'.overview.role = update s.overview.role t r' ∧
        s.turn env a = (s.overview.role t).turn r' := by
  rcases State.step_overview (Reachable.orderly hr) hs with heq | ⟨t, choice, rfl, r', hm, hrole⟩
  · refine .inl ⟨heq, ?_⟩
    cases a with
    | run t choice =>
      have hrole : (s'.task t).role = (s.task t).role := congrFun (congrArg Overview.role heq) t
      rw [State.turn, hs, Option.elim_some, hrole]
      cases (s.task t).role <;> rfl
    | _ => rfl
  · refine .inr ⟨t, r', hm, hrole, ?_⟩
    have hnext : (s'.task t).role = r' := (congrFun hrole t).trans (Function.update_self ..)
    rw [State.turn, hs, Option.elim_some, hnext]
    rfl

theorem inLine (h : RecordedWhen (system env) C (State.turn env) s log) :
    InLine s.overview log := by
  refine h.invariant (I := fun s log => InLine s.overview log) ⟨.nil, .refl _, ?_, ?_⟩
    fun hr hi _ hs => ?_
  · intro j hj
    cases hj
  · intro c j hj
    cases hj
  · rcases State.step_turn hr.reachable hs with ⟨hsame, hturn⟩ | ⟨t, r', hm, hrole, hturn⟩
    · rwa [hsame, hturn, List.append_nil]
    · rw [hturn, Overview.eq_of_role hrole]
      exact hi.move (Reachable.overview hr.reachable) rfl hm

/-- In every run the jobs are handed to workers in the order in which they were enqueued. A job
that was enqueued and not handed over still waits, in the queue or in the hands of the
dispatcher, unless its session is finished or about to be. -/
theorem jobs_are_served_in_order (h : RecordedWhen (system env) C (State.turn env) s log) :
    (arrivals log).Nodup ∧ (services log).Sublist (arrivals log) ∧
      (∀ c, ∀ j ∈ (s.shared.channel c).assignedJobs, j ∈ services log) ∧
      ∀ j ∈ arrivals log, j ∉ services log → (s.shared.inner j).finished = false →
        j ∈ s.shared.queue ∨ (s.task .dispatcher).pc.popped = some j ∨
          ∃ t, (s.task t).pc.aboutToComplete = some j := by
  have hi := inLine h
  have ho := Reachable.overview h.reachable.reachable
  refine ⟨hi.once, (List.sublist_append_left _ _).trans hi.order, hi.assigned,
    fun j hj hserved hlive => ?_⟩
  obtain ⟨hconnected, hnone⟩ := hi.joined j hj
  rcases attended ho j hconnected hlive with hq | ⟨w, hd, hw, hcurrent⟩ | ⟨t, hholds | hends⟩
  · exact .inl hq
  · obtain ⟨place, hplaced⟩ := placed ho
    have hmem := hplaced.mem_assigned.2 (hplaced.current w hd j hw hcurrent)
    exact absurd (hi.assigned _ j hmem) hserved
  · rcases Pc.holds_cases hholds with hact | ⟨hpop, hdisp⟩
    · exact absurd (Pc.enqueueing_iff.2 hact) (hnone t)
    · obtain rfl := dispatches_dispatcher ho t hdisp
      exact .inr (.inl hpop)
  · exact .inr (.inr ⟨t, Pc.aboutToComplete_of_ends hends⟩)

end

/-- Two jobs and one worker: the second job waits for its turn. -/
theorem second_job_waits_for_first :
    ∃ s log, RecordedWhen (system .forTest) (fun _ _ => true = true) (State.turn .forTest) s log ∧
      log = [.enqueued 7, .enqueued 8, .assigned 7] ∧ (services log).Sublist (arrivals log) ∧
      (8 ∈ s.shared.queue ∨ (s.task .dispatcher).pc.popped = some 8 ∨
        ∃ t, (s.task t).pc.aboutToComplete = some 8) := by
  obtain ⟨s, log, hs, hp⟩ := Transition.recordedWhen_of_execute (f := State.step .forTest)
    (i := .new) (c := fun _ _ => true) (State.turn .forTest)
    (Schedule.submit 0 [7, 8] ++ Schedule.register 6 "w" 100 ++ Schedule.assign "w")
    (p := fun s log => log = [.enqueued 7, .enqueued 8, .assigned 7] ∧
      (s.shared.inner 8).finished = false) (by decide +kernel)
  obtain ⟨hlog, hlive⟩ := of_decide_eq_true hp
  obtain ⟨-, horder, -, hwaits⟩ := jobs_are_served_in_order hs
  exact ⟨s, log, hs, hlog, horder, hwaits 8 (by simp [hlog, arrivals]) (by simp [hlog, services])
    hlive⟩

end SmartC.Executor
