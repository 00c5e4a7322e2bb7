import SmartC.Executor.Custody

/-!
# The phases a browser sees

`activate_session`, `apply_phase` and `complete_session` broadcast a phase
after they have released `session.inner`. `InTurn` is the order of the
messages against the order of the stored phases: it holds as long as a message
is broadcast before anyone else has changed or announced the phase.
-/

namespace SmartC.Executor

open Function (update)
open Transition (RecordedWhen)

/-! ### Phase messages -/

def BrowserEvent.phase : BrowserEvent → Option ExecutionPhase
  | .text (.phase p _) => some p
  | _ => none

def Shared.phases (sh : Shared) (j : Uuid) : List ExecutionPhase :=
  (sh.events j).filterMap BrowserEvent.phase

def Pc.announcing : Pc → Option Uuid
  | .completeSession j _ (.sendPhase _) => some j
  | _ => none

/-- The phase message that is broadcast next, and whether it is the one of
`complete_session`. -/
def Pc.announces : Pc → Option (Uuid × ExecutionPhase × Bool)
  | .activateSessionSend j _ => some (j, .queued, false)
  | .applyPhaseSend j p => some (j, p, false)
  | .completeSession j e (.sendPhase _) => some (j, e.phase, true)
  | _ => none

structure PhaseView where
  phases : List ExecutionPhase
  phase : ExecutionPhase
  finished : Bool

def Shared.phaseView (sh : Shared) (j : Uuid) : PhaseView :=
  ⟨sh.phases j, (sh.inner j).phase, (sh.inner j).finished⟩

inductive PhaseStep (sh : Shared) : Pc → Outcome → Prop
  | same {pc o} (silent : pc.announces = none) (view : o.shared.phaseView = sh.phaseView)
      (later : o.pc.announcing = none) : PhaseStep sh pc o
  | created {request expires id o} (fresh : id ∉ sh.created)
      (view : o.shared.phaseView = update sh.phaseView id ⟨[], .queued, false⟩)
      (later : o.pc.announcing = none) : PhaseStep sh (.createExecutionInsert request expires) o
  | queued {j position o}
      (view : o.shared.phaseView = update sh.phaseView j
        { sh.phaseView j with phases := sh.phases j ++ [.queued] })
      (later : o.pc.announcing = none) : PhaseStep sh (.activateSessionSend j position) o
  | changed {j n p o} (phase : protocolPhase n = some p) (live : (sh.inner j).finished = false)
      (valid : validTransition (sh.inner j).phase p = true)
      (view : o.shared.phaseView = update sh.phaseView j { sh.phaseView j with phase := p })
      (later : o.pc.announcing = none) : PhaseStep sh (.applyPhase j n) o
  | sent {j p o}
      (view : o.shared.phaseView = update sh.phaseView j
        { sh.phaseView j with phases := sh.phases j ++ [p] })
      (later : o.pc.announcing = none) : PhaseStep sh (.applyPhaseSend j p) o
  | finished {j e o} (live : (sh.inner j).finished = false)
      (view : o.shared.phaseView = update sh.phaseView j
        ⟨sh.phases j, e.phase, true⟩)
      (later : o.pc.announcing = some j) : PhaseStep sh (.completeSession j e .finish) o
  | announced {j e w o}
      (view : o.shared.phaseView = update sh.phaseView j
        { sh.phaseView j with phases := sh.phases j ++ [e.phase] })
      (later : o.pc.announcing = none) : PhaseStep sh (.completeSession j e (.sendPhase w)) o

section

variable {env : Env} {t : Tid} {choice : Choice} {sh : Shared} {pc : Pc} {o : Outcome} {j : Uuid}

theorem phaseView_setInner (i : SessionInner) : (sh.setInner j i).phaseView =
    update sh.phaseView j ⟨sh.phases j, i.phase, i.finished⟩ := by
  funext k
  by_cases hk : k = j
  · subst hk; simp [Shared.phaseView, Shared.setInner, Shared.phases]
  · simp [Shared.phaseView, Shared.setInner, Shared.phases, hk]

theorem phaseView_same {sh' : Shared} {i : SessionInner} (he : sh'.events = sh.events)
    (hi : sh'.inner = update sh.inner j i) (hp : i.phase = (sh.inner j).phase)
    (hf : i.finished = (sh.inner j).finished) : sh'.phaseView = sh.phaseView := by
  funext k
  by_cases hk : k = j
  · subst hk; simp [Shared.phaseView, Shared.phases, he, hi, hp, hf]
  · simp [Shared.phaseView, Shared.phases, he, hi, hk]

theorem phaseView_broadcast (e : BrowserEvent) : (sh.broadcast j e).phaseView =
    update sh.phaseView j { sh.phaseView j with phases := sh.phases j ++ e.phase.toList } := by
  funext k
  by_cases hk : k = j
  · subst hk
    cases he : e.phase <;>
      simp [Shared.phaseView, Shared.broadcast, Shared.phases, he, List.filterMap_append]
  · simp [Shared.phaseView, Shared.broadcast, Shared.phases, hk]

theorem phaseView_broadcast_same {e : BrowserEvent} (he : e.phase = none) :
    (sh.broadcast j e).phaseView = sh.phaseView := by
  rw [phaseView_broadcast, he]
  simp [Shared.phaseView]

theorem exec_phaseStep (h : exec env t choice sh pc = some o) : PhaseStep sh pc o := by
  cases exec_branch h with
  | failed at_ error => cases pc <;> cases at_ <;> exact .same rfl rfl rfl
  | @inserted id request expires drawn fresh room =>
    refine .created fresh (funext fun k => ?_) rfl
    by_cases hk : k = id
    · subst hk; simp [Shared.phaseView, Shared.phases, SessionInner.new]
    · simp [Shared.phaseView, Shared.phases, hk]
  | queueAnnounced => exact .queued (phaseView_broadcast _) rfl
  | phaseChanged phase free live valid =>
    exact .changed phase live valid ((phaseView_setInner _).trans rfl) rfl
  | phaseSent => exact .sent (phaseView_broadcast _) rfl
  | finished free live => exact .finished live (phaseView_setInner _) rfl
  | finalPhase => exact .announced (phaseView_broadcast _) rfl
  | admitted | activated | stdin | compilerCounted | compilerLimited | terminalCounted
  | terminalLimited | released | assigned =>
    exact .same rfl (phaseView_same rfl rfl rfl rfl) rfl
  | compilerSent | terminalSent | errorSent | exitSent | lossSent =>
    exact .same rfl (phaseView_broadcast_same rfl) rfl
  | _ => exact .same rfl rfl rfl

theorem protocolPhase_running {n : Int} (h : protocolPhase n = some .running) : n = 4 := by
  unfold protocolPhase at h
  split at h <;> cases h
  rfl

theorem running_of_update {sh' : Shared} {i : Uuid} {v : PhaseView}
    (view : sh'.phaseView = update sh.phaseView i v) (hj : (sh'.inner j).phase = .running) :
    j = i ∧ v.phase = .running ∨ (sh.inner j).phase = .running := by
  have hphase : (sh'.phaseView j).phase = .running := hj
  rw [view] at hphase
  by_cases hi : j = i
  · rw [hi, Function.update_self] at hphase
    exact .inl ⟨hi, hphase⟩
  · rw [Function.update_of_ne hi] at hphase
    exact .inr hphase

theorem exec_running (h : exec env t choice sh pc = some o)
    (hj : (o.shared.inner j).phase = .running) : (sh.inner j).phase = .running ∨
      pc = .applyPhase j 4 ∨ ∃ e, pc = .completeSession j e .finish ∧ e.phase = .running := by
  cases exec_phaseStep h with
  | same _ view => exact .inl ((congrArg (fun view => (view j).phase) view).symm.trans hj)
  | created fresh view =>
    rcases running_of_update view hj with ⟨-, hqueued⟩ | hold
    · cases hqueued
    · exact .inl hold
  | queued view =>
    rcases running_of_update view hj with ⟨rfl, hold⟩ | hold <;> exact .inl hold
  | @changed i n p _ phase live valid view =>
    rcases running_of_update view hj with ⟨rfl, hrunning⟩ | hold
    · obtain rfl : p = .running := hrunning
      rw [protocolPhase_running phase]
      exact .inr (.inl rfl)
    · exact .inl hold
  | sent view =>
    rcases running_of_update view hj with ⟨rfl, hold⟩ | hold <;> exact .inl hold
  | @finished i e _ live view =>
    rcases running_of_update view hj with ⟨rfl, hrunning⟩ | hold
    · exact .inr (.inr ⟨e, rfl, hrunning⟩)
    · exact .inl hold
  | announced view =>
    rcases running_of_update view hj with ⟨rfl, hold⟩ | hold <;> exact .inl hold

end

/-! ### The order of the messages -/

def State.announces (j : Uuid) (s : State) : Action → List (ExecutionPhase × Bool)
  | .run t _ =>
    match (s.task t).pc.announces with
    | some (k, message) => if k = j then [message] else []
    | none => []
  | _ => []

/-- The phase before the first message is `queued`. -/
def lastPhase (log : List (ExecutionPhase × Bool)) : ExecutionPhase :=
  (log.map Prod.fst).getLastD .queued

/-- Every message is a valid transition from the one before it, or is the one of
`complete_session`, which is the last. -/
def LifeCycleOrder (log : List (ExecutionPhase × Bool)) : Prop :=
  ∀ before p final after, log = before ++ (p, final) :: after →
    (final = true ∨ validTransition (lastPhase before) p = true) ∧ ∀ x ∈ before, x.2 = false

/-- Whether a phase is stored only after the one before it was broadcast, and is
broadcast while it is stored: by `activate_session` before any other message, by
`apply_phase` before the session is finished. -/
def State.announcesInTurn (s : State) : Action → Bool
  | .run t _ =>
    match (s.task t).pc with
    | .activateSessionSend j _ => (s.shared.phases j).isEmpty
    | .applyPhase j n =>
      (s.shared.inner j).finished ||
        !(protocolPhase n).any (validTransition (s.shared.inner j).phase) ||
        (s.shared.phases j).getLastD .queued == (s.shared.inner j).phase
    | .applyPhaseSend j p => !(s.shared.inner j).finished && (s.shared.inner j).phase == p
    | _ => true
  | _ => true

theorem LifeCycleOrder.append (h : LifeCycleOrder log)
    (hp : final = true ∨ validTransition (lastPhase log) p = true) (hlog : ∀ x ∈ log, x.2 = false) :
    LifeCycleOrder (log ++ [(p, final)]) := by
  intro before q b after heq
  rcases List.eq_nil_or_concat after with rfl | ⟨rest, x, rfl⟩
  · obtain ⟨rfl, hx⟩ := List.append_inj' heq rfl
    cases hx
    exact ⟨hp, hlog⟩
  · rw [List.concat_eq_append, ← List.cons_append, ← List.append_assoc] at heq
    obtain ⟨rfl, -⟩ := List.append_inj' heq rfl
    exact h before q b rest rfl

theorem validTransition_refl (p : ExecutionPhase) : validTransition p p = true := by
  cases p <;> rfl

theorem lastPhase_append (log : List (ExecutionPhase × Bool)) (p : ExecutionPhase) (final : Bool) :
    lastPhase (log ++ [(p, final)]) = p := by
  simp [lastPhase]

structure InTurn (j : Uuid) (s : State) (log : List (ExecutionPhase × Bool)) : Prop where
  known : j ∉ s.shared.created → log = []
  shown : log.map Prod.fst = s.shared.phases j
  order : LifeCycleOrder log
  next : (s.shared.inner j).finished = false →
    validTransition (lastPhase log) (s.shared.inner j).phase = true
  waiting : ∀ t, (s.task t).pc.announcing = some j →
    (s.shared.inner j).finished = true ∧ ∀ x ∈ log, x.2 = false
  unique : ∀ t u, (s.task t).pc.announcing = some j → (s.task u).pc.announcing = some j → t = u
  ended : ∀ x ∈ log, x.2 = true → (s.shared.inner j).finished = true

section

variable {env : Env} {s s' : State} {t : Tid} {choice : Choice} {o : Outcome} {sh : Shared} {pc : Pc}
  {frames : List Frame} {j : Uuid} {log : List (ExecutionPhase × Bool)}

theorem announcing_of_update (hpc : pc.announcing ≠ some j) {u : Tid}
    (hu : (update s.task t ⟨pc, frames⟩ u).pc.announcing = some j) :
    u ≠ t ∧ (s.task u).pc.announcing = some j := by
  by_cases hut : u = t
  · subst hut
    exact absurd (by simpa using hu) hpc
  · exact ⟨hut, by simpa [hut] using hu⟩

theorem Pc.mem_arcs_of_announcing {pc : Pc} (h : pc.announcing = some j) : j ∈ pc.arcs := by
  unfold Pc.announcing at h
  split at h <;> cases h
  exact List.mem_singleton_self j

theorem InTurn.silent (h : InTurn j s log) (hphases : sh.phases j = s.shared.phases j)
    (hfinished : (sh.inner j).finished = (s.shared.inner j).finished)
    (hnext : (s.shared.inner j).finished = false →
      validTransition (lastPhase log) (sh.inner j).phase = true)
    (hcreated : s.shared.created ⊆ sh.created) (hpc : pc.announcing ≠ some j) :
    InTurn j ⟨sh, update s.task t ⟨pc, frames⟩⟩ log := by
  refine ⟨fun hj => h.known fun hk => hj (hcreated hk), hphases ▸ h.shown, h.order, ?_, ?_, ?_, ?_⟩
  · rw [hfinished]
    exact hnext
  · intro u hu
    rw [hfinished]
    exact h.waiting u (announcing_of_update hpc hu).2
  · intro u v hu hv
    exact h.unique u v (announcing_of_update hpc hu).2 (announcing_of_update hpc hv).2
  · rw [hfinished]
    exact h.ended

theorem InTurn.keep (h : InTurn j s log) (hview : sh.phaseView j = s.shared.phaseView j)
    (hcreated : s.shared.created ⊆ sh.created) (hpc : pc.announcing ≠ some j) :
    InTurn j ⟨sh, update s.task t ⟨pc, frames⟩⟩ log := by
  have hphase : (sh.inner j).phase = (s.shared.inner j).phase := congrArg PhaseView.phase hview
  exact h.silent (congrArg PhaseView.phases hview) (congrArg PhaseView.finished hview)
    (hphase ▸ h.next) hcreated hpc

theorem InTurn.message (h : InTurn j s log) (hj : j ∈ sh.created)
    (hphases : sh.phases j = s.shared.phases j ++ [p])
    (hphase : (sh.inner j).phase = (s.shared.inner j).phase)
    (hfinished : (sh.inner j).finished = (s.shared.inner j).finished)
    (hvalid : validTransition (lastPhase log) p = true) (hlog : ∀ x ∈ log, x.2 = false)
    (hnext : (s.shared.inner j).finished = false →
      validTransition p (s.shared.inner j).phase = true)
    (hpc : pc.announcing ≠ some j) :
    InTurn j ⟨sh, update s.task t ⟨pc, frames⟩⟩ (log ++ [(p, false)]) := by
  refine ⟨fun hn => absurd hj hn, ?_, h.order.append (.inr hvalid) hlog, ?_, ?_, ?_, ?_⟩
  · rw [hphases, ← h.shown]
    simp
  · rw [lastPhase_append, hfinished, hphase]
    exact hnext
  · intro u hu
    rw [hfinished]
    obtain ⟨hf, -⟩ := h.waiting u (announcing_of_update hpc hu).2
    refine ⟨hf, ?_⟩
    simp only [List.mem_append, List.mem_singleton]
    rintro x (hx | rfl)
    · exact hlog x hx
    · rfl
  · intro u v hu hv
    exact h.unique u v (announcing_of_update hpc hu).2 (announcing_of_update hpc hv).2
  · simp only [List.mem_append, List.mem_singleton]
    rintro x (hx | rfl) hfinal
    · exact absurd (hlog x hx) (by simp [hfinal])
    · cases hfinal

theorem InTurn.create (h : InTurn j s log) (ho : Orderly s) (fresh : j ∉ s.shared.created)
    (hphases : sh.phases j = []) (hphase : (sh.inner j).phase = .queued)
    (hpc : pc.announcing ≠ some j) : InTurn j ⟨sh, update s.task t ⟨pc, frames⟩⟩ log := by
  obtain rfl := h.known fresh
  have hnobody : ∀ u, (s.task u).pc.announcing ≠ some j := fun u hu =>
    fresh (ho.arcs u j (List.mem_append_left _ (Pc.mem_arcs_of_announcing hu)))
  refine ⟨fun _ => rfl, hphases.symm, h.order, fun _ => ?_, ?_, ?_, nofun⟩
  · rw [hphase]
    rfl
  · intro u hu
    exact absurd (announcing_of_update hpc hu).2 (hnobody u)
  · intro u v hu
    exact absurd (announcing_of_update hpc hu).2 (hnobody u)

theorem InTurn.finish (h : InTurn j s log) (hlive : (s.shared.inner j).finished = false)
    (hphases : sh.phases j = s.shared.phases j) (hfinished : (sh.inner j).finished = true)
    (hcreated : s.shared.created ⊆ sh.created) :
    InTurn j ⟨sh, update s.task t ⟨pc, frames⟩⟩ log := by
  have hnobody : ∀ u, (s.task u).pc.announcing ≠ some j := fun u hu => by
    simp [(h.waiting u hu).1] at hlive
  have hlog : ∀ x ∈ log, x.2 = false := fun x hx => by
    by_contra hx'
    simp [h.ended x hx (by simpa using hx')] at hlive
  have honly : ∀ u, (update s.task t ⟨pc, frames⟩ u).pc.announcing = some j → u = t := fun u hu => by
    by_contra hut
    exact hnobody u (by simpa [hut] using hu)
  refine ⟨fun hj => h.known fun hk => hj (hcreated hk), hphases ▸ h.shown, h.order, ?_, ?_, ?_, ?_⟩
  · intro hf
    cases hfinished.symm.trans hf
  · intro u _
    exact ⟨hfinished, hlog⟩
  · intro u v hu hv
    rw [honly u hu, honly v hv]
  · intro x _ _
    exact hfinished

theorem InTurn.complete (h : InTurn j s log) (ht : (s.task t).pc.announcing = some j)
    (hphases : sh.phases j = s.shared.phases j ++ [p])
    (hfinished : (sh.inner j).finished = (s.shared.inner j).finished) (hj : j ∈ sh.created)
    (hpc : pc.announcing ≠ some j) :
    InTurn j ⟨sh, update s.task t ⟨pc, frames⟩⟩ (log ++ [(p, true)]) := by
  obtain ⟨hend, hlog⟩ := h.waiting t ht
  have hnobody : ∀ u, (update s.task t ⟨pc, frames⟩ u).pc.announcing ≠ some j := fun u hu => by
    obtain ⟨hut, hu⟩ := announcing_of_update hpc hu
    exact hut (h.unique u t hu ht)
  refine ⟨fun hn => absurd hj hn, ?_, h.order.append (.inl rfl) hlog, ?_, ?_, ?_, ?_⟩
  · rw [hphases, ← h.shown]
    simp
  · intro hf
    rw [hfinished, hend] at hf
    cases hf
  · intro u hu
    exact absurd hu (hnobody u)
  · intro u v hu
    exact absurd hu (hnobody u)
  · intro x _ _
    exact hfinished.trans hend

theorem InTurn.outside (h : InTurn j s log) (ho : Outside s.shared sh) :
    InTurn j { s with shared := sh } log := by
  cases ho <;> exact ⟨h.known, h.shown, h.order, h.next, h.waiting, h.unique, h.ended⟩

theorem InTurn.exec (h : InTurn j s log) (ho : Orderly s)
    (hc : s.announcesInTurn (.run t choice) = true)
    (he : exec env t choice s.shared (s.task t).pc = some o) :
    InTurn j ⟨o.shared, update s.task t ⟨o.pc, frames⟩⟩ (log ++ s.announces j (.run t choice)) := by
  have hcreated := (exec_continues he).created
  have hknown : ∀ k ∈ (s.task t).pc.arcs, k ∈ o.shared.created := fun k hk =>
    hcreated (ho.arcs t k (List.mem_append_left _ hk))
  have hstep := exec_phaseStep he
  simp only [State.announces, State.announcesInTurn] at hc ⊢
  -- each case is about `j`, or about another session and leaves `j` alone
  generalize hpc : (s.task t).pc = pc at hstep hknown hc
  cases hstep with
  | same silent view later =>
    simpa [silent] using h.keep (congrFun view j) hcreated (by simp [later])
  | @created request expires id o fresh view later =>
    by_cases hj : id = j
    · subst hj
      have hview : o.shared.phaseView id = ⟨[], .queued, false⟩ := by simp [view]
      simpa [Pc.announces] using h.create ho fresh (congrArg PhaseView.phases hview)
        (congrArg PhaseView.phase hview) (by simp [later])
    · simpa [Pc.announces] using h.keep (by simp [view, Ne.symm hj]) hcreated (by simp [later])
  | @queued k position o view later =>
    by_cases hk : k = j
    · subst hk
      have hview : o.shared.phaseView k =
        { s.shared.phaseView k with phases := s.shared.phases k ++ [.queued] } := by simp [view]
      -- nothing has been broadcast yet
      have hempty : log = [] := by
        have hmap := h.shown.trans (List.isEmpty_iff.mp hc)
        exact List.map_eq_nil_iff.mp hmap
      subst hempty
      simpa [Pc.announces] using h.message (hknown k (by simp [Pc.arcs]))
        (congrArg PhaseView.phases hview) (congrArg PhaseView.phase hview)
        (congrArg PhaseView.finished hview) rfl nofun h.next (by simp [later])
    · simpa [Pc.announces, hk] using h.keep (by simp [view, Ne.symm hk]) hcreated (by simp [later])
  | @changed k n p o phase live valid view later =>
    by_cases hk : k = j
    · subst hk
      have hview : o.shared.phaseView k = { s.shared.phaseView k with phase := p } := by simp [view]
      have hlast : lastPhase log = (s.shared.inner k).phase := by
        have hc : (s.shared.phases k).getLastD .queued = (s.shared.inner k).phase := by
          simpa [live, phase, valid] using hc
        rw [lastPhase, h.shown, hc]
      have hphase : (o.shared.inner k).phase = p := congrArg PhaseView.phase hview
      simpa [Pc.announces] using h.silent (congrArg PhaseView.phases hview)
        (congrArg PhaseView.finished hview) (fun _ => by rw [hlast, hphase, valid]) hcreated
        (by simp [later])
    · simpa [Pc.announces] using h.keep (by simp [view, Ne.symm hk]) hcreated (by simp [later])
  | @sent k p o view later =>
    by_cases hk : k = j
    · subst hk
      have hview : o.shared.phaseView k =
        { s.shared.phaseView k with phases := s.shared.phases k ++ [p] } := by simp [view]
      obtain ⟨hlive, rfl⟩ : (s.shared.inner k).finished = false ∧ (s.shared.inner k).phase = p := by
        simpa using hc
      -- the last message has not come, since the session is not finished
      have hlog : ∀ x ∈ log, x.2 = false := fun x hx => by
        by_contra hx'
        simp [h.ended x hx (by simpa using hx')] at hlive
      simpa [Pc.announces] using h.message (hknown k (by simp [Pc.arcs]))
        (congrArg PhaseView.phases hview) (congrArg PhaseView.phase hview)
        (congrArg PhaseView.finished hview) (h.next hlive) hlog
        (fun _ => validTransition_refl _) (by simp [later])
    · simpa [Pc.announces, hk] using h.keep (by simp [view, Ne.symm hk]) hcreated (by simp [later])
  | @finished k e o live view later =>
    by_cases hk : k = j
    · subst hk
      have hview : o.shared.phaseView k = ⟨s.shared.phases k, e.phase, true⟩ := by simp [view]
      simpa [Pc.announces] using h.finish live (congrArg PhaseView.phases hview)
        (congrArg PhaseView.finished hview) hcreated
    · simpa [Pc.announces] using h.keep (by simp [view, Ne.symm hk]) hcreated (by simp [later, hk])
  | @announced k e w o view later =>
    by_cases hk : k = j
    · subst hk
      have hview : o.shared.phaseView k =
        { s.shared.phaseView k with phases := s.shared.phases k ++ [e.phase] } := by simp [view]
      simpa [Pc.announces] using h.complete (by rw [hpc]; rfl) (congrArg PhaseView.phases hview)
        (congrArg PhaseView.finished hview) (hknown k (by simp [Pc.arcs])) (by simp [later])
    · simpa [Pc.announces, hk] using h.keep (by simp [view, Ne.symm hk]) hcreated (by simp [later])

end

theorem inTurn (h : RecordedWhen (system env) (fun s a => s.announcesInTurn a = true)
    (State.announces j) s log) : InTurn j s log := by
  refine h.invariant ?_ ?_
  · have hinit : ∀ t, ((system env).init.task t).pc.announcing ≠ some j := by
      rintro (_ | n) hend <;> cases hend
    refine ⟨fun _ => rfl, rfl, ?_, fun _ => rfl, fun t ht => absurd ht (hinit t),
      fun t u ht _ => absurd ht (hinit t), fun _ hend => by cases hend⟩
    intro before p final after heq
    simp at heq
  intro s s' a log hr hi hc hs
  have ho := Reachable.orderly hr.reachable
  cases a with
  | run t choice =>
    rcases State.run_cases hs with ⟨r, f, frames, at_, rfl⟩ | ⟨o, he, rfl⟩
    · have hf : (f.resume r).announcing ≠ some j := by
        intro hend
        cases f <;> simp only [Frame.resume] at hend <;> (try split at hend) <;> cases hend
      simpa [State.announces, at_, Pc.announces, State.setTask] using
        hi.keep rfl (Finset.Subset.refl _) hf
    · exact hi.exec ho hc he
  | start n op =>
    simp only [State.announces, List.append_nil]
    cases State.step_cases hs with
    | start => exact hi.keep rfl (Finset.Subset.refl _) (fun hend => by cases op <;> cases hend)
    | outside ho => exact hi.outside ho
  | tick | setClock | take | hangUp =>
    simp only [State.announces, List.append_nil]
    cases State.step_cases hs with
    | outside ho => exact hi.outside ho

/-! ### Whole runs -/

theorem phases_broadcast_in_order
    (h : RecordedWhen (system env) (fun s a => s.announcesInTurn a = true) (State.announces j) s log) :
    log.map Prod.fst = s.shared.phases j ∧ LifeCycleOrder log :=
  ⟨(inTurn h).shown, (inTurn h).order⟩

/-- A job that is compiled, run and reported, with every message in its turn. -/
theorem completed_job_shows_its_phases :
    ∃ s log, RecordedWhen (system .forTest) (fun s a => s.announcesInTurn a = true)
      (State.announces 7) s log ∧
      log = [(.queued, false), (.compiling, false), (.running, false), (.exited, true)] ∧
      LifeCycleOrder log := by
  obtain ⟨s, log, hs, hp⟩ := Transition.recordedWhen_of_execute (f := State.step .forTest)
    (i := .new) (c := State.announcesInTurn) (State.announces 7)
    (Schedule.register 0 "w" 100 ++ Schedule.submit 1 [7] ++ Schedule.assign "w" ++
      Schedule.phase 0 "w" 7 2 ++ Schedule.phase 0 "w" 7 4 ++ Schedule.exit 0 "w" 7)
    (p := fun _ log => log =
      [(.queued, false), (.compiling, false), (.running, false), (.exited, true)]) (by decide)
  exact ⟨s, log, hs, by simpa using hp, (phases_broadcast_in_order hs).2⟩

/-- `activate_session` is interrupted before its message; the job is assigned, and the
worker's `compiling` is broadcast before `queued`. -/
theorem queued_follows_compiling :
    ∃ s log, RecordedWhen (system .forTest) (fun _ _ => True) (State.announces 7) s log ∧
      ¬ LifeCycleOrder log := by
  obtain ⟨s, log, hs, hp⟩ := Transition.recordedWhen_of_execute (f := State.step .forTest)
    (i := .new) (c := fun _ _ => true) (State.announces 7)
    (Schedule.register 0 "w" 100 ++ Schedule.create 1 7 "v" "i" ++ Schedule.consume 2 7 ++
      .start 3 (.activateSession 7) :: Schedule.go 3 3 ++ Schedule.assign "w" ++
      Schedule.phase 0 "w" 7 2 ++ Schedule.go 3 2)
    (p := fun _ log => log = [(.compiling, false), (.queued, false)]) (by decide)
  refine ⟨s, log, hs.weaken fun _ _ _ => trivial, fun horder => ?_⟩
  have hlog : log = [(.compiling, false), (.queued, false)] := by simpa using hp
  obtain ⟨hvalid, -⟩ := horder [(.compiling, false)] .queued false [] hlog
  simp [lastPhase, validTransition] at hvalid

end SmartC.Executor
