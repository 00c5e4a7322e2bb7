import SmartC.Executor.Locking

/-!
# The locks of executor-api never deadlock

Every operation takes its locks in the order `session.inner`, `queue`, `limits`,
and `session.inner`, `workers`; `sessions` is taken alone. The locks and the
callers agree on who has taken and asked for what (`LockedState.Sound`), so
that the rule of `SmartC.Locks` applies: in every reachable state in which a
caller waits, another can take a step.
-/

namespace SmartC.Executor

open Function (update)

/-! ### The locks and the callers agree -/

def Stage.holding (env : Env) (pc : Pc) : Stage → Holding LockName
  | .leaving ks => ⟨ks ++ pc.keeps, none⟩
  | .asked => ⟨pc.keeps, (pc.lock env).map Prod.fst⟩

def Probing.holding (p : Probing) : Holding LockName :=
  ⟨[], match p.asked with
    | true => p.rest.head?.map Prod.fst
    | false => none⟩

def LockedState.holding (env : Env) (s : LockedState) : Caller → Holding LockName
  | .task t => (s.stage t).holding env (s.pc t)
  | .probe n => (s.probe n).holding

def LockedState.next (env : Env) (s : LockedState) : Caller → Option LockName
  | .task t =>
    match s.stage t with
    | .leaving (_ :: _) => none
    | .leaving [] | .asked => ((s.pc t).lock env).map Prod.fst
  | .probe n => (s.probe n).rest.head?.map Prod.fst

def Stage.Fits (env : Env) (pc : Pc) : Stage → Prop
  | .leaving ks => (ks ++ pc.keeps).Nodup
  | .asked => pc.lock env ≠ none

structure LockedState.Sound (env : Env) (s : LockedState) : Prop where
  accounts : Accounts s.lock (s.holding env)
  stages : ∀ t, (s.stage t).Fits env (s.pc t)
  probes : ∀ n, ∀ x ∈ (s.probe n).rest, x.1 ≠ .sessions → x.2 = .alone
  mutex : ∀ k, k ≠ .sessions → (s.lock k).IsMutex

section

variable {env : Env} {s s' : LockedState} {t u : Tid} {n : Nat} {choice : Choice} {k : LockName}
  {mode : Mode} {stage : Stage} {l : Lock Caller}

theorem LockedState.Sound.new : LockedState.Sound env .new where
  accounts := by
    refine Accounts.new fun u => ?_
    cases u with
    | task t => cases t <;> rfl
    | probe n => rfl
  stages _ := Pc.keeps_nodup _
  probes _ := nofun
  mutex _ _ := nofun

structure MovesTask (t : Tid) (stage : Stage) (s s' : LockedState) : Prop where
  stages : s'.stage = update s.stage t stage
  pc : ∀ u, u ≠ t → s'.pc u = s.pc u
  probe : s'.probe = s.probe

theorem MovesTask.holding (h : MovesTask t stage s s') : s'.holding env =
    update (s.holding env) (.task t) (stage.holding env (s'.pc t)) := by
  funext v
  cases v with
  | task u =>
    simp only [LockedState.holding]
    rw [h.stages]
    by_cases hu : u = t
    · subst hu
      rw [Function.update_self, Function.update_self]
    · have hne : Caller.task u ≠ .task t := fun heq => hu (Caller.task.inj heq)
      rw [Function.update_of_ne hne, Function.update_of_ne hu, h.pc u hu]
      rfl
  | probe n =>
    have hne : Caller.probe n ≠ .task t := nofun
    rw [Function.update_of_ne hne]
    simp only [LockedState.holding]
    rw [h.probe]

theorem MovesTask.sound (hmoves : MovesTask t stage s s') (h : s.Sound env)
    (haccounts : Accounts s'.lock
      (update (s.holding env) (.task t) (stage.holding env (s'.pc t))))
    (hfits : stage.Fits env (s'.pc t)) (hmutex : ∀ k, k ≠ .sessions → (s'.lock k).IsMutex) :
    s'.Sound env where
  accounts := hmoves.holding ▸ haccounts
  stages u := by
    rw [hmoves.stages]
    by_cases hu : u = t
    · subst hu
      rw [Function.update_self]
      exact hfits
    · rw [Function.update_of_ne hu, hmoves.pc u hu]
      exact h.stages u
  probes := hmoves.probe ▸ h.probes
  mutex := hmutex

theorem movesTask_setStage : MovesTask t stage s ((s.setLock k l).setStage t stage) :=
  ⟨rfl, fun _ _ => rfl, rfl⟩

theorem holding_of_stage (env : Env) (hstage : s.stage t = stage) :
    s.holding env (.task t) = stage.holding env (s.pc t) := by
  simp only [LockedState.holding]
  rw [hstage]

theorem LockedState.Sound.fits (h : s.Sound env) (hstage : s.stage t = stage) :
    stage.Fits env (s.pc t) :=
  hstage ▸ h.stages t

theorem LockedState.Sound.mutex_update (h : s.Sound env) (hl : k ≠ .sessions → l.IsMutex)
    (k' : LockName) (hk' : k' ≠ .sessions) : (update s.lock k l k').IsMutex := by
  by_cases hk : k' = k
  · subst hk
    rw [Function.update_self]
    exact hl hk'
  · rw [Function.update_of_ne hk]
    exact h.mutex k' hk'

theorem LockedState.Sound.release {ks : List LockName} (h : s.Sound env)
    (hstage : s.stage t = .leaving (k :: ks)) :
    ((s.setLock k ((s.lock k).release (.task t))).setStage t (.leaving ks)).Sound env := by
  have hnodup : (k :: (ks ++ (s.pc t).keeps)).Nodup := h.fits hstage
  have hholding := holding_of_stage env hstage
  rw [List.nodup_cons] at hnodup
  refine movesTask_setStage.sound h ?_ hnodup.2 (h.mutex_update fun hk => (h.mutex k hk).release)
  refine h.accounts.release ?_ ?_ fun k' => ?_
  · rw [hholding]
    rfl
  · rw [hholding]
    exact List.mem_cons_self
  · rw [hholding]
    show k' ∈ ks ++ (s.pc t).keeps ↔ k' ≠ k ∧ k' ∈ k :: (ks ++ (s.pc t).keeps)
    rw [List.mem_cons]
    constructor
    · intro hk'
      refine ⟨?_, .inr hk'⟩
      rintro rfl
      exact hnodup.1 hk'
    · rintro ⟨hne, hk'⟩
      exact hk'.resolve_left hne

theorem LockedState.Sound.ask (h : s.Sound env) (hstage : s.stage t = .leaving [])
    (hlock : (s.pc t).lock env = some (k, mode)) :
    ((s.setLock k ((s.lock k).ask (.task t) mode)).setStage t .asked).Sound env := by
  have hholding := holding_of_stage env hstage
  have hnew : Stage.asked.holding env (s.pc t) = ⟨(s.holding env (.task t)).taken, some k⟩ := by
    rw [hholding]
    simp only [Stage.holding, hlock]
    rfl
  refine movesTask_setStage.sound h ?_ ?_ (h.mutex_update fun hk => ?_)
  · show Accounts _ (update (s.holding env) (.task t) (Stage.asked.holding env (s.pc t)))
    rw [hnew]
    refine h.accounts.ask ?_ ?_
    · rw [hholding]
      rfl
    · rw [hholding]
      intro hk
      exact Nat.lt_irrefl _ (Pc.keeps_rank hk hlock)
  · show (s.pc t).lock env ≠ none
    rw [hlock]
    exact Option.some_ne_none _
  · obtain rfl := Pc.lock_alone hlock hk
    exact (h.mutex k hk).ask

theorem State.run_keeps {state state' : State} (h : state.run env t choice = some state') :
    (∀ k ∈ (state'.task t).pc.keeps, k ∈ (state.task t).pc.holding env) ∧
      ∀ u, u ≠ t → state'.task u = state.task u := by
  obtain ⟨r, f, frames, -, rfl⟩ | ⟨o, ho, rfl⟩ := State.run_cases h
  · refine ⟨fun k hk => ?_, fun u hu => Function.update_of_ne hu ..⟩
    have hself : (state.setTask t ⟨f.resume r, frames⟩).task t = ⟨f.resume r, frames⟩ :=
      Function.update_self ..
    rw [hself, f.resume_keeps r] at hk
    cases hk
  · refine ⟨fun k hk => (exec_keeping ho).kept k ?_, fun u hu => Function.update_of_ne hu ..⟩
    have hself : update state.task t ⟨o.pc, o.frame.toList ++ (state.task t).frames⟩ t =
        ⟨o.pc, o.frame.toList ++ (state.task t).frames⟩ := Function.update_self ..
    have hk : k ∈ (update state.task t ⟨o.pc, o.frame.toList ++ (state.task t).frames⟩ t).pc.keeps :=
      hk
    rw [hself] at hk
    exact hk

theorem mem_leaving {held kept : List LockName} (hkept : ∀ k ∈ kept, k ∈ held) :
    k ∈ held.filter (· ∉ kept) ++ kept ↔ k ∈ held := by
  rw [List.mem_append, List.mem_filter]
  by_cases hk : k ∈ kept
  · simp [hk, hkept k hk]
  · simp [hk]

theorem LockedState.Sound.perform (h : s.Sound env) (hs : s.perform env t choice = some s')
    (hready : s.stage t = .leaving [] ∧ (s.pc t).lock env = none ∨
      s.stage t = .asked ∧ ∃ k mode, (s.pc t).lock env = some (k, mode) ∧
        (s.lock k).holds (.task t) = true) : s'.Sound env := by
  obtain ⟨state, hrun, rfl⟩ := Option.map_eq_some_iff.1 hs
  obtain ⟨hkept, hother⟩ := State.run_keeps hrun
  have hmoves : MovesTask t (.leaving (((s.pc t).holding env).filter
      (· ∉ (state.task t).pc.keeps))) s ({ s with state := state }.setStage t
        (.leaving (((s.pc t).holding env).filter (· ∉ (state.task t).pc.keeps)))) :=
    ⟨rfl, fun u hu => congrArg Task.pc (hother u hu), rfl⟩
  refine hmoves.sound h ?_ ?_ h.mutex
  · have hmem := fun k => mem_leaving (k := k) hkept
    obtain ⟨hstage, hlock⟩ | ⟨hstage, k, mode, hlock, hholds⟩ := hready
    · have hholding := holding_of_stage env hstage
      refine h.accounts.retake (fun k => (hmem k).trans ?_) (by rw [hholding]; rfl)
      have hsame : (s.pc t).holding env = (s.pc t).keeps := by
        rw [Pc.holding, hlock]
        rfl
      rw [hholding, ← LockedState.pc, hsame]
      rfl
    · have hholding := holding_of_stage env hstage
      refine h.accounts.enter (k := k) ?_ hholds fun k' => (hmem k').trans ?_
      · rw [hholding]
        simp only [Stage.holding, hlock]
        rfl
      · rw [hholding, ← LockedState.pc, Pc.holding, hlock]
        exact List.mem_cons
  · refine List.nodup_append.2 ⟨(Pc.holding_nodup env _).filter _, Pc.keeps_nodup _, ?_⟩
    rintro k hk k' hk' rfl
    exact of_decide_eq_true (List.mem_filter.1 hk).2 hk'

theorem LockedState.Sound.run (h : s.Sound env) (hs : s.run env t choice = some s') :
    s'.Sound env := by
  simp only [LockedState.run] at hs
  split at hs
  · next k ks hstage =>
    cases hs
    exact h.release hstage
  · next hstage hlock => exact h.perform hs (.inl ⟨hstage, hlock⟩)
  · next hstage hlock =>
    cases hs
    exact h.ask hstage hlock
  · next hstage hlock =>
    split at hs
    · next hholds => exact h.perform hs (.inr ⟨hstage, _, _, hlock, hholds⟩)
    · cases hs
  · cases hs

theorem holding_setProbe {probe : Probing} {lock : LockName → Lock Caller} :
    ({ s with lock := lock }.setProbe n probe).holding env =
      update (s.holding env) (.probe n) probe.holding := by
  funext v
  cases v with
  | task u =>
    have hne : Caller.task u ≠ .probe n := nofun
    rw [Function.update_of_ne hne]
    rfl
  | probe m =>
    by_cases hm : m = n
    · subst hm
      rw [Function.update_self]
      exact congrArg Probing.holding (Function.update_self ..)
    · have hne : Caller.probe m ≠ .probe n := fun heq => hm (Caller.probe.inj heq)
      rw [Function.update_of_ne hne]
      exact congrArg Probing.holding (Function.update_of_ne hm ..)

theorem LockedState.Sound.setProbe {probe : Probing} {lock : LockName → Lock Caller}
    (h : s.Sound env) (haccounts : Accounts lock (update (s.holding env) (.probe n) probe.holding))
    (hprobe : ∀ x ∈ probe.rest, x.1 ≠ .sessions → x.2 = .alone)
    (hmutex : ∀ k, k ≠ .sessions → (lock k).IsMutex) :
    ({ s with lock := lock }.setProbe n probe).Sound env where
  accounts := holding_setProbe ▸ haccounts
  stages := h.stages
  probes m := by
    show ∀ x ∈ (update s.probe n probe m).rest, _
    by_cases hm : m = n
    · subst hm
      rw [Function.update_self]
      exact hprobe
    · rw [Function.update_of_ne hm]
      exact h.probes m
  mutex := hmutex

theorem LockedState.Sound.runProbe (h : s.Sound env) (hs : s.runProbe n = some s') :
    s'.Sound env := by
  have hmodes := h.probes n
  have hholding : s.holding env (.probe n) = (s.probe n).holding := rfl
  simp only [LockedState.runProbe] at hs
  split at hs
  · cases hs
  · next k mode rest hprobe =>
    cases hs
    rw [hprobe] at hholding hmodes
    refine h.setProbe ?_ hmodes (h.mutex_update fun hk => ?_)
    · have hnone : (s.holding env (.probe n)).asked = none := by rw [hholding]; rfl
      have hnil : k ∉ (s.holding env (.probe n)).taken := by rw [hholding]; exact List.not_mem_nil
      have hasked := h.accounts.ask (m := mode) hnone hnil
      rwa [hholding] at hasked
    · obtain rfl : mode = .alone := hmodes (k, mode) List.mem_cons_self hk
      exact (h.mutex k hk).ask
  · next k mode rest hprobe =>
    split at hs
    · next hholds =>
      cases hs
      rw [hprobe] at hholding hmodes
      refine h.setProbe ?_ (fun x hx => hmodes x (List.mem_cons_of_mem _ hx))
        (h.mutex_update fun hk => (h.mutex k hk).release)
      have hasked : (s.holding env (.probe n)).asked = some k := by rw [hholding]; rfl
      have hnil : k ∉ (s.holding env (.probe n)).taken := by rw [hholding]; exact List.not_mem_nil
      have hleft := h.accounts.leave hasked hholds hnil
      rwa [hholding] at hleft
    · cases hs

theorem Probe.locks_alone (p : Probe) : ∀ x ∈ p.locks, x.1 ≠ .sessions → x.2 = .alone := by
  cases p <;> decide

theorem LockedState.Sound.look {p : Probe} (h : s.Sound env) (hrest : (s.probe n).rest = []) :
    (s.setProbe n ⟨p.locks, false⟩).Sound env := by
  have hnone : (s.holding env (.probe n)).asked = none := by
    show (s.probe n).holding.asked = none
    unfold Probing.holding
    split
    · rw [hrest]
      rfl
    · rfl
  exact h.setProbe (h.accounts.retake (fun _ => .rfl) hnone.symm) p.locks_alone h.mutex

theorem LockedState.Sound.start {op : Op} (h : s.Sound env)
    (hvacant : (s.state.task t).pc = .vacant) :
    { s with state := s.state.setTask t op.start }.Sound env := by
  have hpc : LockedState.pc { s with state := s.state.setTask t op.start } t = op.start.pc :=
    congrArg Task.pc (Function.update_self ..)
  have hmoves : MovesTask t (s.stage t) s { s with state := s.state.setTask t op.start } :=
    ⟨(Function.update_eq_self _ _).symm,
      fun u hu => congrArg Task.pc (Function.update_of_ne hu ..), rfl⟩
  have hfits := h.stages t
  have hholding := holding_of_stage (s := s) (t := t) env rfl
  rw [LockedState.pc, hvacant] at hfits hholding
  cases hstage : s.stage t with
  | asked =>
    rw [hstage] at hfits
    exact absurd rfl hfits
  | leaving ks =>
    rw [hstage] at hfits hmoves hholding
    refine hmoves.sound h ?_ ?_ h.mutex
    · rw [hpc]
      simp only [Stage.holding]
      rw [op.start_keeps]
      refine h.accounts.retake (fun _ => ?_) ?_
      · rw [hholding]
        rfl
      · rw [hholding]
        rfl
    · rw [hpc]
      simp only [Stage.Fits]
      rw [op.start_keeps]
      exact hfits

theorem LockedState.Sound.step {a : LockAction} (h : s.Sound env)
    (hs : s.step env a = some s') : s'.Sound env := by
  cases a with
  | run t choice => exact h.run hs
  | probe n => exact h.runProbe hs
  | look n p =>
    simp only [LockedState.step] at hs
    split at hs <;> cases hs
    next hrest => exact h.look hrest
  | outside a =>
    simp only [LockedState.step] at hs
    split at hs
    · cases hs
    · next hrun =>
      obtain ⟨state, hstep, rfl⟩ := Option.map_eq_some_iff.1 hs
      cases State.step_cases hstep with
      | start vacant known => exact h.start vacant
      | resume => exact absurd rfl hrun
      | exec => exact absurd rfl hrun
      | outside => exact ⟨h.accounts, h.stages, h.probes, h.mutex⟩

theorem lock_sound (h : Transition.Reachable (lockSystem env) s) : s.Sound env :=
  h.invariant .new fun _ hsound _ hs => hsound.step hs

/-! ### No deadlock -/

theorem LockedState.Sound.not_waits {v : Caller} (h : s.Sound env)
    (hasked : ∀ k, (s.holding env v).asked = some k → (s.lock k).holds v = true) :
    ¬ s.Waits v := by
  rintro ⟨k, hwaits⟩
  have hholds := hasked k ((h.accounts.agrees k v).waiter hwaits)
  rw [not_waits_of_holds (h.accounts.once k) hholds] at hwaits
  cases hwaits

theorem LockedState.Sound.not_waits_of_leaving {ks : List LockName} (h : s.Sound env)
    (hstage : s.stage t = .leaving ks) : ¬ s.Waits (.task t) := by
  refine h.not_waits fun k hasked => ?_
  rw [holding_of_stage env hstage] at hasked
  cases hasked

theorem next_of_asked {v : Caller} (hasked : (s.holding env v).asked = some k) :
    s.next env v = some k := by
  cases v with
  | task t =>
    simp only [LockedState.holding, LockedState.next] at hasked ⊢
    cases hstage : s.stage t with
    | leaving ks =>
      rw [hstage] at hasked
      cases hasked
    | asked =>
      rw [hstage] at hasked
      exact hasked
  | probe n =>
    simp only [LockedState.holding, LockedState.next, Probing.holding] at hasked ⊢
    split at hasked
    · exact hasked
    · cases hasked

theorem rank_lt_of_next {v : Caller} {k' : LockName} (htaken : k ∈ (s.holding env v).taken)
    (hnext : s.next env v = some k') : k.rank < k'.rank := by
  cases v with
  | task t =>
    simp only [LockedState.holding, LockedState.next] at htaken hnext
    split at hnext
    · cases hnext
    all_goals
      next hstage =>
        rw [hstage] at htaken
        obtain ⟨⟨_, mode⟩, hlock, rfl⟩ := Option.map_eq_some_iff.1 hnext
        exact Pc.keeps_rank htaken hlock
  | probe n => cases htaken

theorem LockedState.Sound.unmarked (h : s.Sound env) (hmarked : Marked s.state)
    (hlock : (s.pc t).lock env = some (k, mode)) (hholds : (s.lock k).holds (.task t) = true) :
    s.state.shared.marked k = none := by
  cases howner : s.state.shared.marked k with
  | none => rfl
  | some u =>
    have hkept : k ∈ (s.pc u).keeps := hmarked k u howner
    have htaken : k ∈ (s.holding env (.task u)).taken := by
      simp only [LockedState.holding]
      cases s.stage u with
      | leaving ks => exact List.mem_append_right _ hkept
      | asked => exact hkept
    have hk : k ≠ .sessions := by
      rintro rfl
      cases howner
    have hsame := (h.mutex k hk).eq hholds ((h.accounts.agrees k (.task u)).taken htaken)
    cases hsame
    exact absurd (Pc.keeps_rank hkept hlock) (Nat.lt_irrefl _)

/-- A caller can take a step, and waits neither before it nor after it. -/
def LockedState.Moves (env : Env) (s : LockedState) (v : Caller) : Prop :=
  ∃ a s', a.caller = some v ∧ s.step env a = some s' ∧ ¬ s.Waits v ∧ ¬ s'.Waits v

theorem LockedState.Sound.moves_of_asked (h : s.Sound env) (hmarked : Marked s.state)
    (hstage : s.stage t = .asked) (hlock : (s.pc t).lock env = some (k, mode))
    (hholds : (s.lock k).holds (.task t) = true) : s.Moves env (.task t) := by
  obtain ⟨choice, o, ho⟩ := exec_enabled (t := t) hlock (h.unmarked hmarked hlock hholds)
  have hrun := State.run_of_exec ho
  obtain ⟨s', hs'⟩ : ∃ s', s.perform env t choice = some s' :=
    ⟨_, congrArg (Option.map _) hrun⟩
  have hstep : s.step env (.run t choice) = some s' := by
    simp only [LockedState.step, LockedState.run, hstage, hlock, if_pos hholds]
    exact hs'
  have hleaving : ∃ ks, s'.stage t = .leaving ks := by
    obtain ⟨state', -, rfl⟩ := Option.map_eq_some_iff.1 hs'
    exact ⟨_, Function.update_self ..⟩
  obtain ⟨ks, hleaving⟩ := hleaving
  refine ⟨_, s', rfl, hstep, h.not_waits fun k' hk' => ?_,
    (h.step hstep).not_waits_of_leaving hleaving⟩
  rw [holding_of_stage env hstage] at hk'
  simp only [Stage.holding, hlock] at hk'
  cases hk'
  exact hholds

theorem LockedState.Sound.moves_of_leaving {ks : List LockName} (h : s.Sound env)
    (hstage : s.stage t = .leaving ks) (hk : k ∈ ks ++ (s.pc t).keeps)
    (hfree : ∀ k', s.next env (.task t) = some k' → (s.lock k').holders = []) :
    s.Moves env (.task t) := by
  have hbefore := h.not_waits_of_leaving hstage
  cases ks with
  | cons k' ks =>
    have hstep : s.step env (.run t .go) =
        some ((s.setLock k' ((s.lock k').release (.task t))).setStage t (.leaving ks)) := by
      simp only [LockedState.step, LockedState.run, hstage]
    exact ⟨_, _, rfl, hstep, hbefore,
      (h.step hstep).not_waits_of_leaving (Function.update_self ..)⟩
  | nil =>
    obtain ⟨k', mode, hlock⟩ := Pc.lock_of_keeps env hk
    have hstep : s.step env (.run t .go) =
        some ((s.setLock k' ((s.lock k').ask (.task t) mode)).setStage t .asked) := by
      simp only [LockedState.step, LockedState.run, hstage, hlock]
    refine ⟨_, _, rfl, hstep, hbefore, (h.step hstep).not_waits fun k'' hk'' => ?_⟩
    rw [holding_of_stage env (Function.update_self ..)] at hk''
    have hk'' : ((s.pc t).lock env).map Prod.fst = some k'' := hk''
    rw [hlock] at hk''
    cases hk''
    have hholders := Lock.ask_of_free (t := .task t) (m := mode) (hfree k' ?_)
    · show (update s.lock k' ((s.lock k').ask (.task t) mode) k').holds (.task t) = true
      rw [Function.update_self]
      exact Lock.holds_iff.2 ⟨mode, hholders ▸ List.mem_cons_self⟩
    · simp only [LockedState.next, hstage, hlock]
      rfl

theorem LockedState.Sound.moves_probe (h : s.Sound env)
    (hasked : (s.holding env (.probe n)).asked = some k)
    (hholds : (s.lock k).holds (.probe n) = true) : s.Moves env (.probe n) := by
  have hbefore : ¬ s.Waits (.probe n) := by
    refine h.not_waits fun k' hk' => ?_
    cases hasked.symm.trans hk'
    exact hholds
  obtain ⟨mode, rest, hprobe⟩ : ∃ mode rest, s.probe n = ⟨(k, mode) :: rest, true⟩ := by
    simp only [LockedState.holding] at hasked
    generalize s.probe n = probe at hasked
    obtain ⟨rest, asked⟩ := probe
    cases asked with
    | false => cases hasked
    | true =>
      cases rest with
      | nil => cases hasked
      | cons x rest =>
        cases hasked
        exact ⟨x.2, rest, rfl⟩
  have hstep : s.step env (.probe n) =
      some ((s.setLock k ((s.lock k).release (.probe n))).setProbe n ⟨rest, false⟩) := by
    simp only [LockedState.step, LockedState.runProbe, hprobe, if_pos hholds]
  refine ⟨_, _, rfl, hstep, hbefore, (h.step hstep).not_waits fun k' hk' => ?_⟩
  rw [LockedState.setLock, holding_setProbe, Function.update_self] at hk'
  cases hk'

/-- Where somebody waits for a lock, somebody takes a step who does not wait, neither before it
nor after it. -/
theorem locks_never_deadlock (env : Env) (s : LockedState) (u : Caller)
    (h : Transition.Reachable (lockSystem env) s) (hwaits : s.Waits u) :
    ∃ v a s', a.caller = some v ∧ s.step env a = some s' ∧ ¬ s.Waits v ∧ ¬ s'.Waits v := by
  have hsound := lock_sound h
  have hmarked := Reachable.marked (reachable_state h)
  obtain ⟨k, hwaits⟩ := hwaits
  obtain ⟨v, k', hholds, hready⟩ := hsound.accounts.exists_ready (s.next env)
    (fun _ _ => next_of_asked) LockName.rank LockName.rank_le
    (fun _ _ _ => rank_lt_of_next) hwaits
  suffices hmoves : s.Moves env v by
    obtain ⟨a, s', hmoves⟩ := hmoves
    exact ⟨v, a, s', hmoves⟩
  obtain hasked | ⟨hasked, htaken, hfree⟩ := hready
  · cases v with
    | task t =>
      cases hstage : s.stage t with
      | leaving ks =>
        rw [holding_of_stage env hstage] at hasked
        cases hasked
      | asked =>
        rw [holding_of_stage env hstage] at hasked
        obtain ⟨⟨_, mode⟩, hlock, rfl⟩ := Option.map_eq_some_iff.1 hasked
        exact hsound.moves_of_asked hmarked hstage hlock hholds
    | probe n => exact hsound.moves_probe hasked hholds
  · cases v with
    | task t =>
      cases hstage : s.stage t with
      | leaving ks =>
        rw [holding_of_stage env hstage] at htaken
        exact hsound.moves_of_leaving hstage htaken hfree
      | asked =>
        rw [holding_of_stage env hstage] at hasked
        exact absurd (Option.map_eq_none_iff.1 hasked) (hsound.fits hstage)
    | probe n => cases htaken

/-- Two connections consume the ticket of session `0`; the second waits for `session.inner`
while the first goes on to the queue. -/
theorem second_consumer_waits :
    ∃ s, Transition.Reachable (lockSystem .forTest) s ∧ s.Waits (.task (.task 2)) ∧
      ∃ v a s', a.caller = some v ∧ s.step .forTest a = some s' ∧ ¬ s.Waits v ∧ ¬ s'.Waits v := by
  obtain ⟨s, hr, hp⟩ := Transition.reachable_of_execute
    (f := LockedState.step .forTest) (i := .new)
    (p := fun s => (s.lock (.inner 0)).waits (.task (.task 2)))
    ([.outside (.start 0 (.createExecution
        ⟨[⟨"main.c", "int main(void)\x7b\x7d"⟩], ⟨80, 24⟩, "visitor", "ip"⟩)),
      .run (.task 0) .go, .run (.task 0) .go, .run (.task 0) (.fresh 0), .run (.task 0) .go,
      .run (.task 0) .go,
      .outside (.start 1 (.consumeTicket 0 "ticket")), .run (.task 1) .go, .run (.task 1) .go,
      .run (.task 1) .go,
      .outside (.start 2 (.consumeTicket 0 "ticket")), .run (.task 2) .go, .run (.task 2) .go])
    (by decide +kernel)
  exact ⟨s, hr, ⟨_, hp⟩, locks_never_deadlock .forTest s _ hr ⟨_, hp⟩⟩

end

end SmartC.Executor
