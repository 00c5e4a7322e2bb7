import SmartC.Lsp.Reservations

/-!
# The deadlines of a session

A session is the owner of three timers. The idle timer is armed anew on
activity, the absolute timer stays as it was armed when the session was created,
and the ticket timer is cleared when the ticket is used. The timers of a session
are cleared when it leaves the map, so no timer is left for a session that is gone.
-/

namespace SmartC.Lsp

open Transition

def ManagedSession.timer (session : ManagedSession) : TimerKind → Nat
  | .idle => session.idleTimer
  | .absolute => session.absoluteTimer
  | .ticket => session.ticketTimer

section Timed

variable (o : SessionManagerOptions) (sessions : OrderedMap JsString ManagedSession)
  (issued : List Issue)

def recordedTimer (k : JsString × TimerKind) : Option Nat :=
  (sessions.get k.1).map fun session => session.timer k.2

def isArmed (k : JsString × TimerKind) : Prop :=
  ∃ session, sessions.get k.1 = some session ∧ (k.2 = .ticket → session.state = .waiting)

/-- The absolute timer is due a fixed time after the session was created. -/
def isDue (k : JsString × TimerKind) (deadline : Nat) : Prop :=
  k.2 = .absolute →
    ∃ issue ∈ issued, issue.payload.sessionId = k.1 ∧ deadline = issue.time + o.absoluteTtlMs

def Timed (timers : Timers (JsString × TimerKind)) : Prop :=
  timers.Kept (recordedTimer sessions) (isArmed sessions) (isDue o issued)

end Timed

section Operations

variable {o : SessionManagerOptions} {sessions : OrderedMap JsString ManagedSession}
  {issued : List Issue} {timers : Timers (JsString × TimerKind)} {id : JsString}
  {session session' : ManagedSession} {k : JsString × TimerKind}

theorem recordedTimer_of_get (hget : sessions.get id = some session) (kind : TimerKind) :
    recordedTimer sessions (id, kind) = some (session.timer kind) := by
  simp [recordedTimer, hget]

theorem recordedTimer_set :
    recordedTimer (sessions.set id session) k =
      if k.1 = id then some (session.timer k.2) else recordedTimer sessions k := by
  rw [recordedTimer, OrderedMap.get_set]
  split <;> rfl

theorem recordedTimer_delete :
    recordedTimer (sessions.delete id) k = if k.1 = id then none else recordedTimer sessions k := by
  rw [recordedTimer, OrderedMap.get_delete]
  split <;> rfl

theorem isArmed_set :
    isArmed (sessions.set id session) k ↔
      if k.1 = id then k.2 = .ticket → session.state = .waiting else isArmed sessions k := by
  rw [isArmed, OrderedMap.get_set]
  split <;> simp [isArmed]

theorem isArmed_delete : isArmed (sessions.delete id) k ↔ k.1 ≠ id ∧ isArmed sessions k := by
  rw [isArmed, OrderedMap.get_delete]
  split
  · next heq => simp [heq]
  · next hne => simp [isArmed, hne]

theorem isArmed_of_get (hget : sessions.get id = some session) (kind : TimerKind) :
    isArmed sessions (id, kind) ↔ (kind = .ticket → session.state = .waiting) := by
  simp [isArmed, hget]

theorem Timed.refresh (h : Timed o sessions issued timers) (hget : sessions.get id = some session)
    (deadline : Nat) :
    Timed o (sessions.set id { session with idleTimer := timers.nextHandle }) issued
      ((timers.clear session.idleTimer).set (some (id, .idle)) deadline).1 := by
  have hcleared := h.disarm (recordedTimer_of_get hget .idle)
  refine (hcleared.arm (k := (id, .idle)) (d := deadline) (fun hon => hon.2 rfl) nofun).adjust
    ?_ ?_ ?_ fun _ _ hdue => hdue
  · rintro ⟨id', kind⟩
    rw [isArmed_set]
    by_cases hid : id' = id
    · subst hid
      cases kind <;> simp [isArmed_of_get hget]
    · simp [hid]
  · rintro ⟨id', kind⟩ -
    rw [recordedTimer_set, Function.update_apply]
    by_cases hid : id' = id
    · subst hid
      cases kind <;> simp [recordedTimer_of_get hget, ManagedSession.timer, Timers.clear]
    · simp [hid]
  · rintro ⟨id', kind⟩ n hn
    rw [recordedTimer_set] at hn
    rw [Function.update_apply]
    by_cases hid : id' = id
    · subst hid
      cases kind <;>
        simpa [recordedTimer_of_get hget, ManagedSession.timer, Timers.clear] using hn
    · simpa [hid] using hn

theorem Timed.authorize (h : Timed o sessions issued timers)
    (hget : sessions.get id = some session) :
    Timed o (sessions.set id { session with state := .authorized }) issued
      (timers.clear session.ticketTimer) := by
  refine (h.disarm (recordedTimer_of_get hget .ticket)).adjust ?_ ?_ ?_ fun _ _ hdue => hdue
  · rintro ⟨id', kind⟩
    rw [isArmed_set]
    by_cases hid : id' = id
    · subst hid
      cases kind <;> simp [isArmed_of_get hget]
    · simp [hid]
  · rintro ⟨id', kind⟩ -
    rw [recordedTimer_set]
    split
    · next hid =>
      obtain rfl : id' = id := hid
      exact (recordedTimer_of_get hget kind).symm ▸ by cases kind <;> rfl
    · rfl
  · rintro ⟨id', kind⟩ n hn
    rw [recordedTimer_set] at hn
    split at hn
    · next hid =>
      obtain rfl : id' = id := hid
      rw [recordedTimer_of_get hget, ← hn]
      cases kind <;> rfl
    · exact hn

theorem Timed.update (h : Timed o sessions issued timers) (hget : sessions.get id = some session)
    (htimer : ∀ kind, session'.timer kind = session.timer kind)
    (hstate : session'.state = .waiting ↔ session.state = .waiting) :
    Timed o (sessions.set id session') issued timers := by
  have hrecorded : ∀ k, recordedTimer (sessions.set id session') k = recordedTimer sessions k := by
    rintro ⟨id', kind⟩
    rw [recordedTimer_set]
    split
    · next hid =>
      obtain rfl : id' = id := hid
      rw [recordedTimer_of_get hget, htimer]
    · rfl
  refine h.adjust ?_ (fun k _ => hrecorded k) (fun k n hn => (hrecorded k).symm.trans hn)
    fun _ _ hdue => hdue
  rintro ⟨id', kind⟩
  rw [isArmed_set]
  split
  · next hid =>
    obtain rfl : id' = id := hid
    rw [isArmed_of_get hget, hstate]
  · rfl

theorem Timed.close (h : Timed o sessions issued timers) (hget : sessions.get id = some session) :
    Timed o (sessions.delete id) issued
      (((timers.clear session.idleTimer).clear session.absoluteTimer).clear session.ticketTimer) := by
  have hidle := h.disarm (recordedTimer_of_get hget .idle)
  have habsolute := hidle.disarm (recordedTimer_of_get hget .absolute)
  refine (habsolute.disarm (recordedTimer_of_get hget .ticket)).adjust ?_ ?_ ?_ fun _ _ hdue => hdue
  · rintro ⟨id', kind⟩
    rw [isArmed_delete]
    by_cases hid : id' = id
    · subst hid
      cases kind <;> simp
    · simp [hid]
  · rintro ⟨id', kind⟩ hon
    rw [recordedTimer_delete, if_neg]
    rintro rfl
    cases kind <;> simp at hon
  · rintro ⟨id', kind⟩ n hn
    rw [recordedTimer_delete] at hn
    split at hn
    · cases hn
    · exact hn

/-- A timer of the session that has fired makes no difference when the session is closed. -/
theorem Timed.clear_fired (h : Timed o sessions issued timers)
    (hget : sessions.get id = some session) {timer : Timer (JsString × TimerKind)} {kind : TimerKind}
    (hmem : timer ∈ timers.armed) (hcallback : timer.callback = some (id, kind)) :
    ((((timers.clear timer.handle).clear session.idleTimer).clear session.absoluteTimer).clear
      session.ticketTimer) =
    ((timers.clear session.idleTimer).clear session.absoluteTimer).clear session.ticketTimer := by
  have hhandle := (h.callback hmem hcallback).2.1
  rw [recordedTimer_of_get hget, Option.some.injEq] at hhandle
  rw [← hhandle]
  cases kind with
  | idle => rw [ManagedSession.timer, Timers.clear_idem]
  | absolute =>
    rw [ManagedSession.timer, Timers.clear_clear timers, Timers.clear_idem]
  | ticket =>
    rw [ManagedSession.timer, Timers.clear_clear timers,
      Timers.clear_clear (timers.clear session.idleTimer), Timers.clear_idem]

theorem Timed.create (h : Timed o sessions issued timers) (hnew : sessions.get id = none)
    (issue : Issue) (hissue : issue.payload.sessionId = id) (session : ManagedSession)
    (idle ticket : Nat) {n : Nat} (hn : timers.nextHandle ≤ n)
    (hidle : session.idleTimer = n) (habsolute : session.absoluteTimer = n + 1)
    (hticket : session.ticketTimer = n + 2) (hstate : session.state = .waiting) :
    Timed o (sessions.set id session) (issued ++ [issue])
      (((Timers.set ⟨timers.armed, n⟩ (some (id, .idle)) idle).1.set (some (id, .absolute))
        (issue.time + o.absoluteTtlMs)).1.set (some (id, .ticket)) ticket).1 := by
  have hoff : ∀ kind, ¬ isArmed sessions (id, kind) := by
    rintro kind ⟨session, hget, -⟩
    rw [hnew] at hget
    cases hget
  have hdue : ∀ k d, isDue o issued k d → isDue o (issued ++ [issue]) k d := by
    intro k d hdue hkind
    obtain ⟨issue', hmem, heq⟩ := hdue hkind
    exact ⟨issue', List.mem_append_left _ hmem, heq⟩
  have h₀ := (h.skip hn).adjust (fun _ => Iff.rfl) (fun _ _ => rfl) (fun _ _ h => h) hdue
  have h₁ := h₀.arm (k := (id, .idle)) (d := idle) (hoff _) nofun
  have h₂ := h₁.arm (k := (id, .absolute)) (d := issue.time + o.absoluteTtlMs)
    (by simp [hoff]) fun _ => ⟨issue, by simp, hissue, rfl⟩
  have h₃ := h₂.arm (k := (id, .ticket)) (d := ticket) (by simp [hoff]) nofun
  refine h₃.adjust ?_ ?_ ?_ fun _ _ hdue => hdue
  · rintro ⟨id', kind⟩
    rw [isArmed_set]
    by_cases hid : id' = id
    · subst hid
      cases kind <;> simp [hstate]
    · simp [hid]
  · rintro ⟨id', kind⟩ -
    simp only [recordedTimer_set, Function.update_apply, Timers.set]
    by_cases hid : id' = id
    · subst hid
      cases kind <;> simp [ManagedSession.timer, hidle, habsolute, hticket]
    · simp [hid]
  · rintro ⟨id', kind⟩ m hm
    rw [← hm]
    simp only [recordedTimer_set, Function.update_apply, Timers.set]
    by_cases hid : id' = id
    · subst hid
      cases kind <;> simp [ManagedSession.timer, hidle, habsolute, hticket]
    · simp [hid]

end Operations

namespace LspSessionManager

variable {o : SessionManagerOptions} {now : Int} {m m' : LspSessionManager} {c : Change}
  {D : LspSessionManager → Change → Prop}

theorem createManagedSession_timers (hfresh : ∀ timer ∈ m.timers.armed,
      timer.handle < m.timers.nextHandle) (sessionId nonce : JsString)
    (request : InternalCreateLspSessionRequest) :
    (m.createManagedSession o sessionId request nonce).1.timers =
      (((Timers.set ⟨m.timers.armed, m.timers.nextHandle + 3⟩ (some (sessionId, .idle))
        (m.time + o.idleTtlMs)).1.set (some (sessionId, .absolute))
          (m.time + o.absoluteTtlMs)).1.set (some (sessionId, .ticket))
            (m.time + o.ticketTtlMs)).1 := by
  have hplaceholders : ((((((m.timers.set none (m.time + o.idleTtlMs)).1.set none
      (m.time + o.absoluteTtlMs)).1.set none (m.time + o.ticketTtlMs)).1.clear
        m.timers.nextHandle).clear (m.timers.nextHandle + 1)).clear (m.timers.nextHandle + 2)) =
      ⟨m.timers.armed, m.timers.nextHandle + 3⟩ := by
    simp only [Timers.set, Timers.clear, List.filter_append, Timers.filter_fresh hfresh le_rfl,
      Timers.filter_fresh hfresh (Nat.le_add_right _ 1),
      Timers.filter_fresh hfresh (Nat.le_add_right _ 2)]
    simp
  rw [← hplaceholders]
  rfl

def Timed (o : SessionManagerOptions) (m : LspSessionManager) : Prop :=
  Lsp.Timed o m.sessions m.issued m.timers

theorem Timed.step (h : m.Timed o) (hw : m.WellKeyed) (hs : Change.Step o m c m') : m'.Timed o := by
  cases hs with
  | reserve hfresh hreserve =>
    obtain ⟨-, -, -, -, rfl⟩ := reserve_ok hreserve
    exact h
  | @create sessionId creation hget pending hat nonce =>
    have hnone : m.sessions.get sessionId = none := by
      by_contra hsome
      exact hw.creating (WellKeyed.creating_ne_none hget) (hw.session hsome).2
    have hcreate := Lsp.Timed.create h hnone
      ⟨m.newPayload o sessionId creation.request nonce, m.time⟩ rfl
      (m.createManagedSession o sessionId creation.request nonce).2 (m.time + o.idleTtlMs)
      (m.time + o.ticketTtlMs) (Nat.le_add_right _ 3) rfl rfl rfl rfl
    rw [← createManagedSession_timers h.fresh sessionId nonce creation.request] at hcreate
    exact hcreate
  | authorize hget => exact Lsp.Timed.authorize h hget
  | @touch sessionId session hget =>
    obtain rfl := (hw.session_id hget).1
    exact Lsp.Timed.refresh h hget (m.time + o.idleTtlMs)
  | attach hget hstate result =>
    cases result <;> exact Lsp.Timed.update h hget (by rintro ⟨⟩ <;> rfl) (by simp [hstate])
  | close hget =>
    have hclose := Lsp.Timed.close h hget
    exact hclose
  | expire hget hopen htimer hcallback =>
    have hclose := Lsp.Timed.close h hget
    rw [← Lsp.Timed.clear_fired h hget htimer hcallback] at hclose
    exact hclose
  | drop htimer hcallback =>
    obtain ⟨⟨id, kind⟩, howner, ⟨session, hget, -⟩, -⟩ := h.owner htimer
    rcases hcallback id kind howner with hnone | hclosing
    · rw [hget] at hnone
      cases hnone
    · exact absurd (hw.session (by simp [hget])).1 hclosing
  | mkdir | write | fail | abandon | exit | proceed | remove | shutDown | pass | report => exact h

theorem timed (h : ReachableWhen (changeSystem o now) D m) : m.Timed o := by
  refine h.invariant ?_ fun hr ih _ hs => ih.step (wellKeyed hr) hs
  refine Timers.Kept.empty.adjust (fun k => ?_) (fun _ h => h.elim) (fun _ _ h => h) fun _ _ h => h
  exact ⟨fun ⟨_, hget, _⟩ => (by cases hget), False.elim⟩

def timersFor (m : LspSessionManager) (sessionId : JsString) (kind : TimerKind) :
    List (Timer (JsString × TimerKind)) :=
  m.timers.armed.filter fun timer => timer.callback = some (sessionId, kind)

theorem sessions_have_their_deadlines (h : Reachable (managerSystem o now) m) :
    (∀ sessionId session, m.sessions.get sessionId = some session →
      (∃ timer, m.timersFor sessionId .idle = [timer]) ∧
      (∃ timer, ∃ issue ∈ m.issued, m.timersFor sessionId .absolute = [timer] ∧
        issue.payload.sessionId = sessionId ∧ timer.deadline = issue.time + o.absoluteTtlMs) ∧
      (session.state = .waiting → ∃ timer, m.timersFor sessionId .ticket = [timer]) ∧
      (session.state ≠ .waiting → m.timersFor sessionId .ticket = [])) ∧
    ∀ timer ∈ m.timers.armed, ∃ sessionId kind,
      timer.callback = some (sessionId, kind) ∧ m.sessions.get sessionId ≠ none := by
  have ht := timed (reachable_changes h)
  refine ⟨fun sessionId session hget => ⟨?_, ?_, fun hwaiting => ?_, fun hwaiting => ?_⟩,
    fun timer hmem => ?_⟩
  · obtain ⟨timer, hfilter, -⟩ := ht.filter_on ((isArmed_of_get hget .idle).2 nofun)
    exact ⟨timer, hfilter⟩
  · obtain ⟨timer, hfilter, -, hdue⟩ := ht.filter_on ((isArmed_of_get hget .absolute).2 nofun)
    obtain ⟨issue, hissue, hid, hdeadline⟩ := hdue rfl
    exact ⟨timer, issue, hissue, hfilter, hid, hdeadline⟩
  · obtain ⟨timer, hfilter, -⟩ := ht.filter_on ((isArmed_of_get hget .ticket).2 fun _ => hwaiting)
    exact ⟨timer, hfilter⟩
  · exact ht.filter_off fun harmed => hwaiting ((isArmed_of_get hget .ticket).1 harmed rfl)
  · obtain ⟨⟨sessionId, kind⟩, hcallback, ⟨session, hget, -⟩, -⟩ := ht.owner hmem
    exact ⟨sessionId, kind, hcallback, by simp [hget]⟩

/-- One session is attached, and another one still waits for its socket. -/
theorem deadlines_of_two_sessions : ∃ m : LspSessionManager, ∃ session₁ session₂,
    m.sessions.get (js "s1") = some session₁ ∧ m.sessions.get (js "s2") = some session₂ ∧
    m.timersFor (js "s1") .ticket = [] ∧ ∃ timer, m.timersFor (js "s2") .ticket = [timer] := by
  obtain ⟨m, hr, hp⟩ := reachable_of_execute (f := step (Sample.options 8)) (i := .new 0)
    (Sample.create "s1" "v1" "n1" ++ Sample.open_ "s1" "v1" "n1" ++ Sample.create "s2" "v2" "n2")
    (p := fun m => (m.sessions.get (js "s1")).any (fun session => session.state = .connected) &&
      (m.sessions.get (js "s2")).any fun session => session.state = .waiting) (by decide +kernel)
  simp only [Bool.and_eq_true, Option.any_eq_true, decide_eq_true_eq] at hp
  obtain ⟨⟨session₁, hget₁, hstate₁⟩, session₂, hget₂, hstate₂⟩ := hp
  have hdeadlines := (sessions_have_their_deadlines hr).1
  exact ⟨m, session₁, session₂, hget₁, hget₂,
    (hdeadlines _ _ hget₁).2.2.2 (by rw [hstate₁]; decide),
    (hdeadlines _ _ hget₂).2.2.1 hstate₂⟩

end LspSessionManager

end SmartC.Lsp
