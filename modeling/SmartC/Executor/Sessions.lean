import SmartC.Counting
import SmartC.Executor.Ledger

/-!
# Sessions: who may touch one and how it ends

Invariants of the ledger about single sessions. `Known`: nothing names an id
that was not handed out. `Locked`: a task that keeps `session.inner` finds the
session as it left it. `Progressed`: a finished session is completed by
exactly one task, and the stage that task has reached says what has been done
for the session so far.
-/

namespace SmartC.Executor

open Function (update)
open Transition (ReachableWhen)

attribute [grind =] Function.update_apply
attribute [grind cases] Cause
attribute [grind =] Flags.new

/-- The invariant rule of the ledger: one move of one task at a time. -/
theorem ledger_invariant {D : Overview → Tid → Prop} {I : Ledger → (Tid → Role) → Prop}
    (h : ReachableWhen (ledgerSystem config) D o) (init : I .new fun _ => .idle)
    (move : ∀ {L role t r L' r'}, ReachableWhen (ledgerSystem config) D ⟨L, role⟩ →
      D ⟨L, role⟩ t → I L role → role t = r → Move config t L r L' r' →
        I L' (update role t r')) :
    I o.ledger o.role := by
  refine h.invariant (I := fun o => I o.ledger o.role) init ?_
  rintro ⟨L, role⟩ ⟨L', role'⟩ t hr hi hd ⟨r', hm, rfl⟩
  exact move hr hd hi rfl hm

section

variable {β : Type*} {role : Tid → Role} {t : Tid} {r' : Role}

theorem forall_role_update_of_ne {f : Role → Option β} {Q : Tid → β → Prop}
    (h : ∀ u, u ≠ t → ∀ j, f (role u) = some j → Q u j) (ht : ∀ j, f r' = some j → Q t j) :
    ∀ u j, f (update role t r' u) = some j → Q u j := by
  intro u j hu
  by_cases hut : u = t
  · subst hut
    exact ht j (by simpa using hu)
  · exact h u hut j (by simpa [hut] using hu)

theorem forall_role_update {f : Role → Option β} {Q : Tid → β → Prop}
    (h : ∀ u j, f (role u) = some j → Q u j) (ht : ∀ j, f r' = some j → Q t j) :
    ∀ u j, f (update role t r' u) = some j → Q u j :=
  forall_role_update_of_ne (fun u _ => h u) ht

theorem exists_role_update (role : Tid → Role) (t : Tid) (r' : Role) {P : Role → Prop} :
    (∃ u, P (update role t r' u)) ↔ P r' ∨ ∃ u, u ≠ t ∧ P (role u) :=
  Function.exists_update_iff role (p := fun _ r => P r)

theorem exists_role_update_of_not (r' : Role) {P : Role → Prop} (hr : role t = r)
    (hbefore : ¬ P r) (hafter : ¬ P r') : (∃ u, P (update role t r' u)) ↔ ∃ u, P (role u) := by
  rw [exists_role_update, or_iff_right hafter]
  refine exists_congr fun u => and_iff_right_of_imp fun hu => ?_
  rintro rfl
  exact hbefore (hr ▸ hu)

end

/-! ### Known ids -/

@[grind]
def Role.job : Role → Option Uuid
  | .idle | .notifying | .awaiting | .parked => none
  | .counting j | .checking j | .admitting j | .enqueueing j | .popped j | .assigning j
  | .returning j _ | .reporting j | .stopping j | .ending _ j | .completing j _ => some j

structure Known (L : Ledger) (role : Tid → Role) : Prop where
  roles : ∀ t j, (role t).job = some j → j ∈ L.created
  queue : ∀ j ∈ L.queue, j ∈ L.created
  current : ∀ w h j, L.workers w = some h → h.currentJob = some j → j ∈ L.created
  sessions : ∀ j ∈ L.sessions, j ∈ L.created
  flags : ∀ j, j ∉ L.created → L.flags j = .new
  exits : ∀ j, j ∉ L.created → L.exits j = 0

section

variable {config : AppConfig} {L L' : Ledger} {role : Tid → Role} {t : Tid} {r r' : Role} {j : Uuid}

theorem Move.created_mono (hm : Move config t L r L' r') (hj : j ∈ L.created) : j ∈ L'.created := by
  cases hm
  case insert => exact Finset.mem_insert_of_mem hj
  all_goals exact hj

theorem Move.job_known (hm : Move config t L r L' r') (hk : Known L role) (hr : role t = r)
    (hj : r'.job = some j) : j ∈ L'.created := by
  have ht : ∀ j, r.job = some j → j ∈ L.created := hr ▸ hk.roles t
  cases hm <;> simp only [Role.job, Option.some.injEq, reduceCtorEq] at hj
  case insert => exact hj ▸ Finset.mem_insert_self ..
  case lock known _ _ _ => exact hj ▸ known
  case activate known _ _ _ => exact hj ▸ known
  case stop known _ _ => exact hj ▸ known
  case reportExit worker current _ => exact hj ▸ hk.current _ _ _ worker current
  case loseBusy worker current => exact hj ▸ hk.current _ _ _ worker current
  case pop head => exact hj ▸ hk.queue _ (by simp [head])
  all_goals exact ht _ (congrArg some hj)

theorem Known.move_queue (h : Known L role) (hr : role t = r) (hm : Move config t L r L' r') :
    ∀ j ∈ L'.queue, j ∈ L'.created := by
  have ht : ∀ j, r.job = some j → j ∈ L.created := hr ▸ h.roles t
  have hqueue := h.queue
  cases hm
  case insert => exact fun j hj => Finset.mem_insert_of_mem (hqueue j hj)
  case enqueue | unqueue | pop | putBack | retry => grind
  all_goals exact hqueue

theorem Known.move_current (h : Known L role) (hr : role t = r) (hm : Move config t L r L' r') :
    ∀ w h j, L'.workers w = some h → h.currentJob = some j → j ∈ L'.created := by
  have ht : ∀ j, r.job = some j → j ∈ L.created := hr ▸ h.roles t
  have hcurrent := h.current
  cases hm
  case insert => exact fun w h j hw hj => Finset.mem_insert_of_mem (hcurrent w h j hw hj)
  case lose | loseBusy | free | register | assign => grind
  all_goals exact hcurrent

theorem Known.move_sessions (h : Known L role) (hm : Move config t L r L' r') :
    ∀ j ∈ L'.sessions, j ∈ L'.created := by
  have hsessions := h.sessions
  cases hm
  case insert | remove => grind
  all_goals exact hsessions

theorem Known.move_flags (h : Known L role) (hr : role t = r) (hm : Move config t L r L' r') :
    ∀ j, j ∉ L'.created → L'.flags j = .new := by
  have ht : ∀ j, r.job = some j → j ∈ L.created := hr ▸ h.roles t
  have hflags := h.flags
  cases hm
  case insert | consume | activate | finish | release | assign => grind
  all_goals exact hflags

theorem Known.move_exits (h : Known L role) (hr : role t = r) (hm : Move config t L r L' r') :
    ∀ j, j ∉ L'.created → L'.exits j = 0 := by
  have ht : ∀ j, r.job = some j → j ∈ L.created := hr ▸ h.roles t
  have hexits := h.exits
  cases hm
  case insert | sendExit => grind
  all_goals exact hexits

theorem Known.move (h : Known L role) (hr : role t = r) (hm : Move config t L r L' r') :
    Known L' (update role t r') where
  roles := forall_role_update (fun u j hj => hm.created_mono (h.roles u j hj))
    (fun _ hj => hm.job_known h hr hj)
  queue := h.move_queue hr hm
  current := h.move_current hr hm
  sessions := h.move_sessions hm
  flags := h.move_flags hr hm
  exits := h.move_exits hr hm

end

theorem known (h : ReachableWhen (ledgerSystem config) D o) : Known o.ledger o.role :=
  ledger_invariant h ⟨by simp [Role.job], by simp [Ledger.new], by simp [Ledger.new],
    by simp [Ledger.new], fun _ _ => rfl, fun _ _ => rfl⟩ fun _ _ hi hr hm => hi.move hr hm

/-! ### The lock of a session -/

@[grind]
def Role.locks : Role → Option Uuid
  | .checking j | .admitting j | .assigning j => some j
  | .idle | .counting _ | .enqueueing _ | .notifying | .popped _ | .returning .. | .awaiting
  | .parked | .reporting _ | .stopping _ | .ending .. | .completing .. => none

/-- The session that a `consume_ticket` has locked. -/
@[grind]
def Role.checks : Role → Option Uuid
  | .checking j | .admitting j => some j
  | .idle | .counting _ | .enqueueing _ | .notifying | .popped _ | .assigning _ | .returning ..
  | .awaiting | .parked | .reporting _ | .stopping _ | .ending .. | .completing .. => none

theorem Role.locks_of_checks {r : Role} (h : r.checks = some j) : r.locks = some j := by
  cases r <;> first | exact h | cases h

structure Locked (L : Ledger) (role : Tid → Role) : Prop where
  owner : ∀ t j, (role t).locks = some j → L.locked j = some t
  live : ∀ t j, (role t).locks = some j → (L.flags j).finished = false
  unused : ∀ t j, (role t).checks = some j → (L.flags j).ticketConsumed = false

section

variable {config : AppConfig} {L L' : Ledger} {role : Tid → Role} {t : Tid} {r r' : Role}

theorem Locked.move_owner (h : Locked L role) (hr : role t = r) (hm : Move config t L r L' r') :
    ∀ u j, (update role t r' u).locks = some j → L'.locked j = some u := by
  have ht : ∀ j, r.locks = some j → L.locked j = some t := hr ▸ h.owner t
  have howner := h.owner
  cases hm
  case lock | reject | consume | hold | assign | block | undeliverable => grind
  all_goals exact forall_role_update howner ht

theorem Locked.move_live (h : Locked L role) (hr : role t = r) (hm : Move config t L r L' r') :
    ∀ u j, (update role t r' u).locks = some j → (L'.flags j).finished = false := by
  have ht : ∀ j, r.locks = some j → (L.flags j).finished = false := hr ▸ h.live t
  have hlive := h.live
  have howner := h.owner
  cases hm
  case finish j free _ =>
    -- A session that some task has locked is not finished by another one.
    refine forall_role_update (fun u k hu => ?_) nofun
    have hk : k ≠ j := fun hk => by simp [hk ▸ howner u k hu] at free
    simpa [hk] using hlive u k hu
  case insert | lock | consume | activate | release | hold | assign => grind
  all_goals exact forall_role_update hlive (by first | exact ht | exact nofun)

theorem Locked.move_unused (h : Locked L role) (hr : role t = r) (hm : Move config t L r L' r') :
    ∀ u j, (update role t r' u).checks = some j → (L'.flags j).ticketConsumed = false := by
  have ht : ∀ j, r.checks = some j → (L.flags j).ticketConsumed = false := hr ▸ h.unused t
  have hunused := h.unused
  cases hm
  case consume j _ _ _ =>
    -- The lock is exclusive, so no other task is checking this session.
    refine forall_role_update_of_ne (fun u hut k hu => ?_) nofun
    have hk : k ≠ j := by
      rintro rfl
      have hlocked := h.owner t k (by simp [hr, Role.locks])
      exact hut (Option.some.inj ((h.owner u k (Role.locks_of_checks hu)).symm.trans hlocked))
    simpa [hk] using hunused u k hu
  case insert | lock | activate | finish | release | assign => grind
  all_goals exact forall_role_update hunused (by first | exact ht | exact nofun)

theorem Locked.move (h : Locked L role) (hr : role t = r) (hm : Move config t L r L' r') :
    Locked L' (update role t r') :=
  ⟨h.move_owner hr hm, h.move_live hr hm, h.move_unused hr hm⟩

end

theorem locked (h : ReachableWhen (ledgerSystem config) D o) : Locked o.ledger o.role :=
  ledger_invariant h ⟨by simp [Role.locks], by simp [Role.locks], by simp [Role.checks]⟩
    fun _ _ hi hr hm => hi.move hr hm

/-! ### Completion -/

/-- How far the completion of a session has come. -/
inductive Progress
  | opened
  | completing (t : Tid) (stage : CompleteAt)
  | closed
  deriving DecidableEq

@[grind]
def CompleteAt.rank : CompleteAt → Nat
  | .finish => 0
  | .sendPhase _ => 1
  | .sendExit _ => 2
  | .releaseInner _ => 3
  | .releaseLimits .. => 4
  | .freeWorker _ => 5
  | .count => 6
  | .remove => 7
  | .notify => 8

@[grind]
def Progress.rank : Progress → Nat
  | .opened => 0
  | .completing _ stage => stage.rank
  | .closed => 9

structure Progressed (L : Ledger) (role : Tid → Role) (progress : Uuid → Progress) : Prop where
  completing : ∀ t j stage, role t = .completing j stage ↔ progress j = .completing t stage
  finished : ∀ j, (L.flags j).finished = false ↔ progress j = .opened
  exits : ∀ j, L.exits j = if (progress j).rank ≤ 2 then 0 else 1
  sessions : ∀ j, j ∈ L.sessions ↔ j ∈ L.created ∧ (progress j).rank ≤ 7
  completed : L.completedTotal = L.created.countWhere fun j => 7 ≤ (progress j).rank

@[grind]
def advance (t : Tid) (r r' : Role) (progress : Uuid → Progress) (k : Uuid) : Progress :=
  match r, r' with
  | _, .completing j stage => if k = j then .completing t stage else progress k
  | .completing j _, _ => if k = j then .closed else progress k
  | _, _ => progress k

section

variable {L L' : Ledger} {role : Tid → Role} {progress : Uuid → Progress} {t : Tid} {r r' : Role}
  {j : Uuid}

theorem Progressed.opened (h : Progressed L role progress) (hk : Known L role)
    (hj : j ∉ L.created) : progress j = .opened :=
  (h.finished j).mp (by simp [hk.flags j hj, Flags.new])

theorem Progressed.move_completed (h : Progressed L role progress) (hk : Known L role)
    (hr : role t = r) (hm : Move config t L r L' r') :
    L'.completedTotal = L'.created.countWhere fun j => 7 ≤ (advance t r r' progress j).rank := by
  have hj := h.completing t
  rw [hr] at hj
  cases hm with
  | insert fresh room =>
    exact h.completed.trans (Finset.countWhere_insert
      (by simp [h.opened hk fresh, Progress.rank])).symm
  | complete =>
    rename_i j
    have hstage : progress j = .completing t .count := (hj j .count).mp rfl
    have hcreated : j ∈ L.created := hk.roles t j (by simp [hr, Role.job])
    rw [h.completed]
    refine (Finset.countWhere_gain hcreated ?_ ?_ fun k _ hk => ?_).symm
    · simp [hstage, Progress.rank, CompleteAt.rank]
    · simp [advance, Progress.rank, CompleteAt.rank]
    · simp [advance, hk]
  | finish | sendPhase | sendExit | keepLimits | release | settle | free | freeNothing | remove
  | announce | announceLoss =>
    have hfinished := h.finished
    rw [h.completed]
    exact Finset.countWhere_congr fun k _ => by grind
  | _ => exact h.completed

theorem Progressed.completing_frame (h : Progressed L role progress) (hr : role t = r)
    (hbefore : ∀ j stage, r ≠ .completing j stage) (hafter : ∀ j stage, r' ≠ .completing j stage) :
    ∀ u j stage, update role t r' u = .completing j stage ↔ progress j = .completing u stage := by
  intro u j stage
  by_cases hut : u = t
  · subst hut
    rw [Function.update_self, ← h.completing u j stage, hr]
    exact iff_of_false (hafter j stage) (hbefore j stage)
  · rw [Function.update_of_ne hut]
    exact h.completing u j stage

theorem Progressed.move_completing (h : Progressed L role progress) (hr : role t = r)
    (hm : Move config t L r L' r') : ∀ u j stage, update role t r' u = .completing j stage ↔
      advance t r r' progress j = .completing u stage := by
  have hcompleting := h.completing
  have hfinished := h.finished
  cases hm
  case finish | sendPhase | sendExit | keepLimits | release | settle | free | freeNothing
      | complete | remove | announce | announceLoss => grind
  all_goals exact h.completing_frame hr (by simp) (by simp)

theorem Progressed.move_finished (h : Progressed L role progress) (hk : Known L role)
    (hr : role t = r) (hm : Move config t L r L' r') (j : Uuid) :
    (L'.flags j).finished = false ↔ advance t r r' progress j = .opened := by
  have hopened := h.opened (j := j) hk
  have hcompleting := h.completing t j
  have hfinished := h.finished j
  cases hm
  case insert | consume | activate | finish | sendPhase | sendExit | keepLimits | release
      | settle | free | freeNothing | complete | remove | announce | announceLoss | assign => grind
  all_goals exact hfinished

theorem Progressed.move_exits (h : Progressed L role progress) (hk : Known L role)
    (hr : role t = r) (hm : Move config t L r L' r') (j : Uuid) :
    L'.exits j = if (advance t r r' progress j).rank ≤ 2 then 0 else 1 := by
  have hopened := h.opened (j := j) hk
  have hcompleting := h.completing t j
  have hfinished := h.finished j
  have hexits := h.exits j
  cases hm
  case insert | finish | sendPhase | sendExit | keepLimits | release | settle | free
      | freeNothing | complete | remove | announce | announceLoss => grind
  all_goals exact hexits

theorem Progressed.move_sessions (h : Progressed L role progress) (hk : Known L role)
    (hr : role t = r) (hm : Move config t L r L' r') (j : Uuid) :
    j ∈ L'.sessions ↔ j ∈ L'.created ∧ (advance t r r' progress j).rank ≤ 7 := by
  have hopened := h.opened (j := j) hk
  have hcompleting := h.completing t j
  have hfinished := h.finished j
  have hsessions := h.sessions j
  cases hm
  case insert | finish | sendPhase | sendExit | keepLimits | release | settle | free
      | freeNothing | complete | remove | announce | announceLoss => grind
  all_goals exact hsessions

theorem Progressed.move (h : Progressed L role progress) (hk : Known L role) (hr : role t = r)
    (hm : Move config t L r L' r') :
    Progressed L' (update role t r') (advance t r r' progress) :=
  ⟨h.move_completing hr hm, h.move_finished hk hr hm, h.move_exits hk hr hm,
    h.move_sessions hk hr hm, h.move_completed hk hr hm⟩

end

theorem progressed (h : ReachableWhen (ledgerSystem config) D o) :
    ∃ progress, Progressed o.ledger o.role progress := by
  refine ledger_invariant (I := fun L role => ∃ progress, Progressed L role progress) h
    ⟨fun _ => .opened, ?_, ?_, ?_, ?_, ?_⟩ fun hr _ hi ht hm => ?_
  iterate 4 simp [Ledger.new, Flags.new, Progress.rank]
  · exact Finset.countWhere_empty.symm
  obtain ⟨progress, hi⟩ := hi
  exact ⟨_, hi.move (known hr) ht hm⟩

theorem completing_finished (h : ReachableWhen (ledgerSystem config) D o)
    (hr : o.role t = .completing j stage) : (o.ledger.flags j).finished = true := by
  obtain ⟨progress, hp⟩ := progressed h
  have hstage := (hp.completing t j stage).mp hr
  refine Bool.of_not_eq_false fun hf => ?_
  simp [(hp.finished j).mp hf] at hstage

/-! ### The flags of a session -/

structure Flags.Ok (f : Flags) : Prop where
  pending : f.pendingActivation = true → f.limitsReserved = true ∧ f.socketConnected = false
  connected : f.socketConnected = true → f.ticketConsumed = true
  reserved : f.limitsReserved = true → f.ticketConsumed = true ∧ f.limitsReleased = false
  released : f.limitsReleased = true → f.finished = true ∧ f.ticketConsumed = true
  consumed : f.ticketConsumed = true → f.limitsReserved = true ∨ f.limitsReleased = true

theorem Flags.Ok.move {L L' : Ledger} (h : ∀ j, (L.flags j).Ok) (hl : Locked L role)
    (hc : ∀ t j stage, role t = .completing j stage → (L.flags j).finished = true)
    (hr : role t = r) (hm : Move config t L r L' r') (j : Uuid) : (L'.flags j).Ok := by
  have hj := h j
  have hc := hc t
  have hlive := hl.live t
  have hunused := hl.unused t
  rw [hr] at hc hlive hunused
  cases hm
  case insert | consume | activate | finish | release | assign =>
    obtain ⟨pending, connected, reserved, released, consumed⟩ := hj
    constructor <;> grind
  all_goals exact hj

theorem flags_ok (h : ReachableWhen (ledgerSystem config) D o) (j : Uuid) : (o.ledger.flags j).Ok :=
  ledger_invariant (I := fun L _ => ∀ j, (L.flags j).Ok) h
    (fun _ => by constructor <;> simp [Ledger.new, Flags.new])
    (fun hr _ hi ht hm => Flags.Ok.move hi (locked hr) (fun _ _ _ => completing_finished hr) ht hm) j

end SmartC.Executor
