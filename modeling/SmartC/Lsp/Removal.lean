import SmartC.Lsp.Service

/-!
# Writes into a workspace that is being removed

A session with an adapter has a clangd that runs for as long as the session is in the
map, so `rm` waits for that process: it starts when clangd exits, or when the grace
period of SIGKILL is over. If the chain of the adapter has nothing more to write by
then, and no update arrives later, nothing is written into a workspace that is being
removed.
-/

namespace SmartC.Lsp

open Transition

/-! ### Whose process it is -/

/-- No two sessions have the same clangd. -/
structure Owned (sessions : OrderedMap JsString ManagedSession) (nextPid : Nat) : Prop where
  bounded : ∀ {id session pid}, sessions.get id = some session → session.clangd = some pid →
    pid < nextPid
  unique : ∀ {id id' session session' pid}, sessions.get id = some session →
    session.clangd = some pid → sessions.get id' = some session' → session'.clangd = some pid →
    id' = id

namespace Owned

variable {sessions : OrderedMap JsString ManagedSession} {nextPid : Nat} {id : JsString}
  {session : ManagedSession}

theorem empty : Owned .empty nextPid where
  bounded hget := by cases hget
  unique hget := by cases hget

theorem set (h : Owned sessions nextPid) (hclangd : ∀ pid, session.clangd = some pid →
    ∃ before, sessions.get id = some before ∧ before.clangd = some pid) :
    Owned (sessions.set id session) nextPid := by
  -- whoever has a process afterwards had it before
  have hbefore : ∀ {id' session' pid}, (sessions.set id session).get id' = some session' →
      session'.clangd = some pid →
      ∃ before, sessions.get id' = some before ∧ before.clangd = some pid := by
    intro id' session' pid hget hpid
    rw [OrderedMap.get_set] at hget
    split at hget
    · next heq =>
      cases hget
      exact heq ▸ hclangd pid hpid
    · exact ⟨session', hget, hpid⟩
  constructor
  · intro id' session' pid hget hpid
    obtain ⟨before, hget, hpid⟩ := hbefore hget hpid
    exact h.bounded hget hpid
  · intro id₁ id₂ session₁ session₂ pid hget₁ hpid₁ hget₂ hpid₂
    obtain ⟨before₁, hget₁, hpid₁⟩ := hbefore hget₁ hpid₁
    obtain ⟨before₂, hget₂, hpid₂⟩ := hbefore hget₂ hpid₂
    exact h.unique hget₁ hpid₁ hget₂ hpid₂

theorem delete (h : Owned sessions nextPid) (id : JsString) : Owned (sessions.delete id) nextPid := by
  have hbefore : ∀ {id' session'}, (sessions.delete id).get id' = some session' →
      sessions.get id' = some session' := by
    intro id' session' hget
    rw [OrderedMap.get_delete] at hget
    split at hget
    · cases hget
    · exact hget
  exact ⟨fun hget => h.bounded (hbefore hget),
    fun hget hpid hget' => h.unique (hbefore hget) hpid (hbefore hget')⟩

theorem spawn (h : Owned sessions nextPid) (hclangd : session.clangd = some nextPid) :
    Owned (sessions.set id session) (nextPid + 1) := by
  -- the process is new, so another session with it would have had it before
  have hother : ∀ {id' session' pid}, (sessions.set id session).get id' = some session' →
      session'.clangd = some pid →
      id' = id ∧ pid = nextPid ∨ sessions.get id' = some session' ∧ pid < nextPid := by
    intro id' session' pid hget hpid
    rw [OrderedMap.get_set] at hget
    split at hget
    · next heq =>
      cases hget
      exact .inl ⟨heq, Option.some.inj (hpid.symm.trans hclangd)⟩
    · exact .inr ⟨hget, h.bounded hget hpid⟩
  constructor
  · intro id' session' pid hget hpid
    rcases hother hget hpid with ⟨-, rfl⟩ | ⟨-, hlt⟩
    · exact Nat.lt_succ_self _
    · exact hlt.trans (Nat.lt_succ_self _)
  · intro id₁ id₂ session₁ session₂ pid hget₁ hpid₁ hget₂ hpid₂
    rcases hother hget₁ hpid₁ with ⟨heq₁, hpid⟩ | ⟨hold₁, hlt⟩
    · rcases hother hget₂ hpid₂ with ⟨heq₂, -⟩ | ⟨-, hlt⟩
      · exact heq₂.trans heq₁.symm
      · exact absurd hpid hlt.ne
    · rcases hother hget₂ hpid₂ with ⟨-, hpid⟩ | ⟨hold₂, -⟩
      · exact absurd hpid hlt.ne
      · exact h.unique hold₁ hpid₁ hold₂ hpid₂

end Owned

namespace LspSessionManager

variable {o : SessionManagerOptions} {now : Int} {m m' : LspSessionManager} {c : Change}

theorem Owned.step (h : Owned m.sessions m.nextPid) (hs : Change.Step o m c m') :
    Owned m'.sessions m'.nextPid := by
  cases hs with
  | reserve hfresh hreserve =>
    obtain ⟨-, -, -, -, rfl⟩ := reserve_ok hreserve
    exact h
  | create => exact h.set nofun
  | authorize hget => exact h.set fun pid hpid => ⟨_, hget, hpid⟩
  | touch hget => exact h.set fun pid hpid => ⟨_, hget, hpid⟩
  | attach hget hstate result =>
    cases result with
    | throws => exact h.set fun pid hpid => ⟨_, hget, hpid⟩
    | running | withoutStreams | failed => exact h.spawn rfl
  | close | expire => exact h.delete _
  | mkdir | write | fail | abandon | drop | exit | proceed | remove | shutDown | pass | report =>
    exact h

theorem createdIds_step (hs : Change.Step o m c m') : createdIds m.issued ⊆ createdIds m'.issued := by
  cases hs with
  | reserve hfresh hreserve =>
    obtain ⟨-, -, -, -, rfl⟩ := reserve_ok hreserve
    exact List.Subset.refl _
  | create =>
    exact List.map_subset _ (List.subset_append_left _ _)
  | attach hget hstate result => cases result <;> exact List.Subset.refl _
  | mkdir | write | fail | abandon | authorize | touch | close | expire | drop | exit | proceed
  | remove | shutDown | pass | report => exact List.Subset.refl _

/-! ### What a call does to the sessions -/

def ownsProcess (m : LspSessionManager) (sessionId : JsString) (pid : Nat) : Bool :=
  (m.sessions.get sessionId).any (fun session => session.clangd = some pid) ||
    (m.cleanupPromises.get sessionId).any fun cleanup => cleanup.session.clangd = some pid

/-- Whether the wait for the clangd of a session ends with the call: the process exits, or the
grace period after which it is given up does. -/
def endsWait (m : LspSessionManager) (sessionId : JsString) : ManagerAction → Bool
  | .processExits pid => m.ownsProcess sessionId pid
  | .gracePeriodEnds id => id = sessionId && match m.cleanupPromises.get sessionId with
    | some ⟨session, .terminating⟩ => !session.clangd.any fun pid => m.running.contains pid
    | some ⟨_, .killing⟩ => true
    | _ => false
  | _ => false

/-- The call keeps clangd running for the sessions that stay in the map, and `rm` starts for no
session but those whose wait it ends and those that have no clangd to wait for. -/
structure Kept (P ends : JsString → Prop) (m m' : LspSessionManager) : Prop where
  session : ∀ {id session'}, P id → m'.sessions.get id = some session' →
    ∃ session, m.sessions.get id = some session ∧ session'.clangd = session.clangd ∧
      (session.state = .connected → session'.state = .connected) ∧
      ∀ pid ∈ m.running, session.clangd = some pid → pid ∈ m'.running
  removal : ∀ {id}, P id → m'.removalStarted id = true → m.removalStarted id = true ∨ ends id ∨
    ∃ session, m.sessions.get id = some session ∧ ∀ pid ∈ m.running, session.clangd ≠ some pid

theorem removalStarted_of_same {id : JsString} (hid : id ∈ createdIds m.issued)
    (hsession : m'.sessions.get id = none → m.sessions.get id = none)
    (hcleanup : m'.cleanupPromises.get id = m.cleanupPromises.get id)
    (h : m'.removalStarted id = true) : m.removalStarted id = true := by
  unfold removalStarted at h ⊢
  rw [hcleanup] at h
  split at h
  · exact h
  · simp only [Bool.and_eq_true, Bool.not_eq_true', OrderedMap.has, Option.isSome_eq_false_iff,
      Option.isNone_iff_eq_none] at h
    simp only [List.contains_iff_mem.2 hid, OrderedMap.has, hsession h.2, Option.isSome_none,
      Bool.not_false, Bool.and_self]

section Dispose

variable {id id' : JsString} {session session' : ManagedSession}

theorem has_cleanup_of_session (hw : m.WellKeyed) (hget : m.sessions.get id = some session) :
    m.cleanupPromises.has id = false := by
  rw [OrderedMap.has, (hw.session (by rw [hget]; exact Option.some_ne_none _)).1]
  rfl

theorem session_of_dispose (hget : (m.dispose id session).sessions.get id' = some session') :
    id' ≠ id ∧ m.sessions.get id' = some session' := by
  have hget : (m.sessions.delete id).get id' = some session' := hget
  rw [OrderedMap.get_delete] at hget
  split at hget
  · cases hget
  · next hne => exact ⟨hne, hget⟩

theorem removalStarted_of_dispose (hid : id' ∈ createdIds m.issued) (hne : id' ≠ id)
    (h : (m.dispose id session).removalStarted id' = true) : m.removalStarted id' = true := by
  refine removalStarted_of_same hid (fun hnone => ?_) ?_ h
  · have hnone : (m.sessions.delete id).get id' = none := hnone
    rwa [OrderedMap.get_delete, if_neg hne] at hnone
  · exact (OrderedMap.get_set ..).trans (if_neg hne)

end Dispose

namespace Kept

variable {P ends : JsString → Prop} {id : JsString} {session session' : ManagedSession}

theorem trans {m'' : LspSessionManager} (h : Kept P ends m m') (h' : Kept P ends m' m'') :
    Kept P ends m m'' where
  session hP hget := by
    obtain ⟨session', hget', hclangd', hstate', hrunning'⟩ := h'.session hP hget
    obtain ⟨session, hget, hclangd, hstate, hrunning⟩ := h.session hP hget'
    refine ⟨session, hget, hclangd'.trans hclangd, fun h => hstate' (hstate h), ?_⟩
    intro pid hmem hpid
    exact hrunning' pid (hrunning pid hmem hpid) (hclangd.trans hpid)
  removal hP hstarted := by
    rcases h'.removal hP hstarted with hstarted | hends | ⟨session', hget', hstopped⟩
    · exact h.removal hP hstarted
    · exact .inr (.inl hends)
    · obtain ⟨session, hget, hclangd, -, hrunning⟩ := h.session hP hget'
      refine .inr (.inr ⟨session, hget, fun pid hmem hpid => ?_⟩)
      exact hstopped pid (hrunning pid hmem hpid) (hclangd.trans hpid)

theorem of_sessions (hcreated : ∀ {id}, P id → id ∈ createdIds m.issued)
    (hsessions : m'.sessions = m.sessions) (hrunning : m.running ⊆ m'.running)
    (hcleanup : ∀ id, m'.cleanupPromises.get id = m.cleanupPromises.get id ∨
      m.removalStarted id = true ∨ ends id ∨ m'.removalStarted id = false) : Kept P ends m m' where
  session _ hget := ⟨_, hsessions ▸ hget, rfl, fun h => h, fun pid hmem _ => hrunning hmem⟩
  removal {id} hP hstarted := by
    rcases hcleanup id with hsame | hbefore | hends | hafter
    · exact .inl (removalStarted_of_same (hcreated hP) (fun h => hsessions ▸ h) hsame hstarted)
    · exact .inl hbefore
    · exact .inr (.inl hends)
    · rw [hafter] at hstarted
      cases hstarted

theorem refl (hcreated : ∀ {id}, P id → id ∈ createdIds m.issued) : Kept P ends m m :=
  of_sessions hcreated rfl (List.Subset.refl _) fun _ => .inl rfl

theorem set (hcreated : ∀ {id}, P id → id ∈ createdIds m.issued)
    (hsessions : m'.sessions = m.sessions.set id session')
    (hcleanup : m'.cleanupPromises = m.cleanupPromises) (hrunning : m.running ⊆ m'.running)
    (hid : P id → ∃ session, m.sessions.get id = some session ∧ session'.clangd = session.clangd ∧
      (session.state = .connected → session'.state = .connected)) : Kept P ends m m' where
  session {id' _} hP hget := by
    rw [hsessions, OrderedMap.get_set] at hget
    split at hget
    · next heq =>
      subst heq
      cases hget
      obtain ⟨session, hget, hclangd, hstate⟩ := hid hP
      exact ⟨session, hget, hclangd, hstate, fun pid hmem _ => hrunning hmem⟩
    · exact ⟨_, hget, rfl, fun h => h, fun pid hmem _ => hrunning hmem⟩
  removal {id'} hP hstarted := by
    refine .inl (removalStarted_of_same (hcreated hP) (fun hnone => ?_) (by rw [hcleanup]) hstarted)
    rw [hsessions, OrderedMap.get_set] at hnone
    split at hnone
    · cases hnone
    · exact hnone

theorem dispose (hcreated : ∀ {id}, P id → id ∈ createdIds m.issued)
    (hget : m.sessions.get id = some session) : Kept P ends m (m.dispose id session) where
  session hP hget' :=
    ⟨_, (session_of_dispose hget').2, rfl, fun h => h, fun pid hmem _ => hmem⟩
  removal {id'} hP hstarted := by
    by_cases heq : id' = id
    · subst heq
      refine .inr (.inr ⟨session, hget, fun pid hmem hpid => ?_⟩)
      -- a process that runs is waited for
      simp [removalStarted, LspSessionManager.dispose, clearTimeout, OrderedMap.get_set, hpid,
        hmem] at hstarted
    · exact .inl (removalStarted_of_dispose (hcreated hP) heq hstarted)

theorem closeSession (hcreated : ∀ {id}, P id → id ∈ createdIds m.issued) (id : JsString)
    (closeCode : Nat) (closeReason : String) :
    Kept P ends m (m.closeSession id closeCode closeReason).1 := by
  unfold LspSessionManager.closeSession performCleanup
  split
  · exact refl hcreated
  · split
    · exact refl hcreated
    · next session hget => exact dispose hcreated hget

end Kept

theorem closeSession_issued (id : JsString) (closeCode : Nat) (closeReason : String) :
    (m.closeSession id closeCode closeReason).1.issued = m.issued := by
  unfold closeSession performCleanup
  split
  · rfl
  · split <;> rfl

section React

variable {P : JsString → Prop} {ends : JsString → Prop}

theorem closeAll_kept (closeCode : Nat) (closeReason : String) (ids : List JsString)
    (hcreated : ∀ {id}, P id → id ∈ createdIds m.issued) :
    Kept P ends m (closeAll closeCode closeReason ids m).1 := by
  induction ids generalizing m with
  | nil => exact .refl hcreated
  | cons id rest ih =>
    refine (Kept.closeSession hcreated id closeCode closeReason).trans (ih fun hP => ?_)
    rw [closeSession_issued]
    exact hcreated hP

theorem createSession_kept (request : InternalCreateLspSessionRequest) (sessionId : JsString)
    (hcreated : ∀ {id}, P id → id ∈ createdIds m.issued) :
    Kept P ends m (m.createSession o request sessionId).1 := by
  unfold createSession
  split
  · exact .refl hcreated
  · next reserved hreserve =>
    obtain ⟨-, -, -, -, rfl⟩ := reserve_ok hreserve
    exact .of_sessions hcreated rfl (List.Subset.refl _) fun _ => .inl rfl

theorem creationSettles_kept {sessionId nonce : JsString} {succeeds : Bool}
    {r : LspSessionManager × List ManagerEvent} (hw : m.WellKeyed)
    (hcreated : ∀ {id}, P id → id ∈ createdIds m.issued)
    (h : m.creationSettles o sessionId succeeds nonce = some r) : Kept P ends m r.1 := by
  have hsame : ∀ {m'}, m'.sessions = m.sessions → m'.cleanupPromises = m.cleanupPromises →
      m'.running = m.running → Kept P ends m m' := fun hsessions hcleanup hrunning =>
    .of_sessions hcreated hsessions (hrunning ▸ List.Subset.refl _) fun _ => .inl (by rw [hcleanup])
  unfold creationSettles at h
  dsimp only at h
  split at h
  · cases h
  · next hget =>
    split at h
    · split at h <;> cases h <;> exact hsame rfl rfl rfl
    · split at h
      · cases h
        exact hsame rfl rfl rfl
      · split at h <;> cases h
        · exact hsame rfl rfl rfl
        · -- the session is new, so it is none of those that were created before
          refine .set hcreated rfl rfl (List.Subset.refl _) fun hP => ?_
          exact absurd (hcreated hP) (hw.creating (WellKeyed.creating_ne_none hget))
    · split at h <;> cases h <;> exact hsame rfl rfl rfl

theorem refreshIdleTimer_kept {sessionId : JsString} {session : ManagedSession}
    (hcreated : ∀ {id}, P id → id ∈ createdIds m.issued)
    (hget : m.sessions.get sessionId = some session) :
    Kept P ends m (m.refreshIdleTimer o sessionId session) := by
  refine .set hcreated rfl rfl (List.Subset.refl _) fun _ => ⟨session, hget, rfl, fun h => h⟩

theorem get_update (m : LspSessionManager) (sessionId : JsString) (session : ManagedSession) :
    (m.update sessionId session).sessions.get sessionId = some session :=
  (OrderedMap.get_set ..).trans (if_pos rfl)

theorem authorizeWebSocket_kept (sessionId path : JsString) (ticket : Option JsString)
    (hcreated : ∀ {id}, P id → id ∈ createdIds m.issued) :
    Kept P ends m (m.authorizeWebSocket o sessionId path ticket).1 := by
  unfold authorizeWebSocket
  dsimp only
  split
  · exact .refl hcreated
  · exact .refl hcreated
  · next session ticket hget =>
    split
    · exact .refl hcreated
    · next hstate =>
      split
      · exact .refl hcreated
      · exact .refl hcreated
      · split
        · exact .refl hcreated
        · let m₁ := (m.update sessionId { session with state := .authorized }).clearTimeout
            session.ticketTimer
          have hauthorized : Kept P ends m m₁ := by
            refine .set hcreated rfl rfl (List.Subset.refl _) fun _ => ⟨session, hget, rfl, fun h => ?_⟩
            exact absurd (h.symm.trans (not_not.1 hstate)) (by decide)
          exact hauthorized.trans (refreshIdleTimer_kept (m := m₁) hcreated (get_update m sessionId _))

theorem discardSessionAfterInvalidHandshake_kept (sessionId path : JsString)
    (ticket : Option JsString) (hcreated : ∀ {id}, P id → id ∈ createdIds m.issued) :
    Kept P ends m (m.discardSessionAfterInvalidHandshake o sessionId path ticket).1 := by
  unfold discardSessionAfterInvalidHandshake
  split
  · split
    · exact .refl hcreated
    · split
      · exact .refl hcreated
      · split
        · exact .refl hcreated
        · exact .closeSession hcreated _ _ _
  · exact .refl hcreated

theorem touchSession_kept (sessionId : JsString)
    (hcreated : ∀ {id}, P id → id ∈ createdIds m.issued) :
    Kept P ends m (m.touchSession o sessionId) := by
  unfold touchSession
  split
  · next session hget =>
    split
    · exact refreshIdleTimer_kept hcreated hget
    · exact .refl hcreated
  · exact .refl hcreated

theorem timerFires_kept {handle : Nat} {r : LspSessionManager × List ManagerEvent}
    (hcreated : ∀ {id}, P id → id ∈ createdIds m.issued) (h : m.timerFires handle = some r) :
    Kept P ends m r.1 := by
  have hcleared : Kept P ends m (m.clearTimeout handle) :=
    .of_sessions hcreated rfl (List.Subset.refl _) fun _ => .inl rfl
  unfold timerFires at h
  split at h
  · cases h
  · split at h
    · cases h
    · dsimp only at h
      split at h <;> cases h
      · exact hcleared
      · exact hcleared.trans (.closeSession (m := m.clearTimeout handle) hcreated _ _ _)

/-- The session that gets its socket is not of `P`, as those have theirs. -/
theorem attachWebSocket_kept (sessionId : JsString) (result : SpawnResult)
    (hcreated : ∀ {id}, P id → id ∈ createdIds m.issued)
    (hconnected : ∀ {id session}, P id → m.sessions.get id = some session →
      session.state = .connected) : Kept P ends m (m.attachWebSocket o sessionId result).1 := by
  unfold attachWebSocket
  split
  · exact .refl hcreated
  · next session hget =>
    split
    · exact .refl hcreated
    · next hstate =>
      have hnew : ¬ P sessionId := fun hP =>
        absurd ((hconnected hP hget).symm.trans (not_not.1 hstate)) (by decide)
      have hset : ∀ {m' session'}, m'.sessions = m.sessions.set sessionId session' →
          m'.cleanupPromises = m.cleanupPromises → m.running ⊆ m'.running → Kept P ends m m' :=
        fun hsessions hcleanup hrunning =>
          .set hcreated hsessions hcleanup hrunning fun hP => absurd hP hnew
      let spawned := { session with state := .connected, clangd := some m.nextPid }
      let running := (m.spawnClangd true).update sessionId spawned
      let failed := (m.spawnClangd false).update sessionId spawned
      have hrunning : Kept P ends m running := hset rfl rfl (List.subset_append_left _ _)
      have hfailed : Kept P ends m failed := hset rfl rfl (List.Subset.refl _)
      cases result with
      | throws => exact hset rfl rfl (List.Subset.refl _)
      | running =>
        exact hrunning.trans (refreshIdleTimer_kept (m := running) hcreated (get_update ..))
      | withoutStreams => exact hrunning.trans (.closeSession (m := running) hcreated _ _ _)
      | failed =>
        let refreshed := failed.refreshIdleTimer o sessionId spawned
        have hrefreshed : Kept P ends failed refreshed :=
          refreshIdleTimer_kept (m := failed) hcreated (get_update ..)
        exact (hfailed.trans hrefreshed).trans (.closeSession (m := refreshed) hcreated _ _ _)

theorem startRemoval_kept (sessionId : JsString)
    (hcreated : ∀ {id}, P id → id ∈ createdIds m.issued) (hends : ends sessionId) :
    Kept P ends m (m.startRemoval sessionId) := by
  unfold startRemoval
  split
  · exact .refl hcreated
  · refine .of_sessions hcreated rfl (List.Subset.refl _) fun id => ?_
    by_cases heq : id = sessionId
    · exact .inr (.inr (.inl (heq ▸ hends)))
    · exact .inl ((OrderedMap.get_set ..).trans (if_neg heq))

theorem gracePeriodEnds_kept {sessionId : JsString}
    (hcreated : ∀ {id}, P id → id ∈ createdIds m.issued)
    (h : m.gracePeriodEnds sessionId = some m') :
    Kept P (fun id => m.endsWait id (.gracePeriodEnds sessionId) = true) m m' := by
  unfold gracePeriodEnds at h
  split at h
  · next session hget =>
    split at h <;> cases h
    · refine .of_sessions hcreated rfl (List.Subset.refl _) fun id => ?_
      by_cases heq : id = sessionId
      · refine .inr (.inr (.inr ?_))
        simp [removalStarted, heq, OrderedMap.get_set]
      · exact .inl ((OrderedMap.get_set ..).trans (if_neg heq))
    · next hstopped =>
      exact startRemoval_kept sessionId hcreated (by simpa [endsWait, hget] using hstopped)
  · next hget =>
    cases h
    exact startRemoval_kept sessionId hcreated (by simp [endsWait, hget])
  · cases h

theorem removalSettles_kept {sessionId : JsString} {succeeds : Bool}
    (hcreated : ∀ {id}, P id → id ∈ createdIds m.issued)
    (h : m.removalSettles sessionId succeeds = some m') : Kept P ends m m' := by
  unfold removalSettles at h
  split at h
  · next hget =>
    cases h
    refine .of_sessions hcreated rfl (List.Subset.refl _) fun id => ?_
    by_cases heq : id = sessionId
    · exact .inr (.inl (by simp [removalStarted, heq, hget]))
    · exact .inl ((OrderedMap.get_delete ..).trans (if_neg heq))
  · cases h

theorem exit_dispose_kept {pid : Nat} {owner : JsString} {session : ManagedSession}
    (ho : Owned m.sessions m.nextPid) (hcreated : ∀ {id}, P id → id ∈ createdIds m.issued)
    (hget : m.sessions.get owner = some session) (hpid : session.clangd = some pid)
    (hends : ends owner) :
    Kept P ends m ({ m with running := m.running.filter (· ≠ pid) }.dispose owner session) where
  session {id session'} hP hget' := by
    obtain ⟨hne, hget'⟩ := session_of_dispose hget'
    refine ⟨session', hget', rfl, fun h => h, fun pid' hmem hpid' => ?_⟩
    refine List.mem_filter.2 ⟨hmem, decide_eq_true fun heq => hne ?_⟩
    exact ho.unique hget hpid hget' (heq ▸ hpid')
  removal {id} hP hstarted := by
    by_cases heq : id = owner
    · exact .inr (.inl (heq ▸ hends))
    · let exited := { m with running := m.running.filter (· ≠ pid) }
      exact .inl (removalStarted_of_dispose (m := exited) (hcreated hP) heq hstarted)

theorem exit_kept {pid : Nat} (hcreated : ∀ {id}, P id → id ∈ createdIds m.issued)
    (hnone : ∀ {id session}, m.sessions.get id = some session → session.clangd ≠ some pid) :
    Kept P ends m { m with running := m.running.filter (· ≠ pid) } where
  session {id session'} hP hget := by
    refine ⟨session', hget, rfl, fun h => h, fun pid' hmem hpid' => ?_⟩
    exact List.mem_filter.2 ⟨hmem, decide_eq_true fun heq => hnone hget (heq ▸ hpid')⟩
  removal hP hstarted := .inl (removalStarted_of_same (hcreated hP) (fun h => h) rfl hstarted)

theorem processExits_kept {pid : Nat} {r : LspSessionManager × List ManagerEvent} (hw : m.WellKeyed)
    (ho : Owned m.sessions m.nextPid) (hcreated : ∀ {id}, P id → id ∈ createdIds m.issued)
    (h : m.processExits pid = some r) :
    Kept P (fun id => m.endsWait id (.processExits pid) = true) m r.1 := by
  unfold processExits at h
  split at h
  · dsimp only at h
    split at h
    · next owner session hfind =>
      have hget := OrderedMap.mem_entries.1 (List.mem_of_find?_eq_some hfind)
      have hpid : session.clangd = some pid := by simpa using List.find?_some hfind
      have hopen := has_cleanup_of_session hw hget
      cases h
      simp only [closeSession, hopen, Bool.false_eq_true, if_false, performCleanup, hget]
      exact exit_dispose_kept ho hcreated hget hpid (by simp [endsWait, ownsProcess, hget, hpid])
    · next hfind =>
      have hexit : Kept P (fun id => m.endsWait id (.processExits pid) = true) m
          { m with running := m.running.filter (· ≠ pid) } := by
        refine exit_kept hcreated fun hget hpid => ?_
        simpa [hpid] using List.find?_eq_none.1 hfind _ (OrderedMap.mem_entries.2 hget)
      split at h
      · next owner cleanup hfind =>
        have hget := OrderedMap.mem_entries.1 (List.mem_of_find?_eq_some hfind)
        have hpid : cleanup.session.clangd = some pid := by simpa using List.find?_some hfind
        cases h
        refine hexit.trans (startRemoval_kept owner hcreated ?_)
        simp [endsWait, ownsProcess, hget, hpid]
      · cases h
        exact hexit
  · cases h

theorem react_kept {a : ManagerAction} {r : LspSessionManager × List ManagerEvent} (hw : m.WellKeyed)
    (ho : Owned m.sessions m.nextPid) (hcreated : ∀ {id}, P id → id ∈ createdIds m.issued)
    (hconnected : ∀ {id session}, P id → m.sessions.get id = some session →
      session.state = .connected) (h : m.react o a = some r) :
    Kept P (fun id => m.endsWait id a = true) m r.1 := by
  cases a with
  | createSession request sessionId =>
    simp only [react] at h
    split at h <;> cases h
    exact createSession_kept request sessionId hcreated
  | creationSettles => exact creationSettles_kept hw hcreated h
  | authorizeWebSocket =>
    cases h
    exact authorizeWebSocket_kept _ _ _ hcreated
  | discardSessionAfterInvalidHandshake =>
    cases h
    exact discardSessionAfterInvalidHandshake_kept _ _ _ hcreated
  | attachWebSocket =>
    cases h
    exact attachWebSocket_kept _ _ hcreated hconnected
  | touchSession =>
    cases h
    exact touchSession_kept _ hcreated
  | closeSession =>
    cases h
    exact .closeSession hcreated _ _ _
  | timerFires => exact timerFires_kept hcreated h
  | processExits => exact processExits_kept hw ho hcreated h
  | gracePeriodEnds =>
    obtain ⟨m', hends, rfl⟩ := Option.map_eq_some_iff.1 h
    exact gracePeriodEnds_kept hcreated hends
  | removalSettles =>
    obtain ⟨m', hsettles, rfl⟩ := Option.map_eq_some_iff.1 h
    exact removalSettles_kept hcreated hsettles
  | shutdown =>
    cases h
    have hmarked : ∀ shutdowns, Kept P (fun id => m.endsWait id .shutdown = true) m
        { m with shuttingDown := true, shutdowns := shutdowns } := fun _ =>
      .of_sessions hcreated rfl (List.Subset.refl _) fun _ => .inl rfl
    exact (hmarked _).trans (closeAll_kept _ _ _ hcreated)
  | tick | setClock =>
    cases h
    exact .of_sessions hcreated rfl (List.Subset.refl _) fun _ => .inl rfl

theorem attachWebSocket_running {sessionId : JsString} {session session' : ManagedSession}
    {result : SpawnResult} (hw : m.WellKeyed) (hget : m.sessions.get sessionId = some session)
    (hstate : session.state = .authorized) (hresult : result ≠ .throws)
    (hget' : (m.attachWebSocket o sessionId result).1.sessions.get sessionId = some session') :
    session'.state = .connected ∧
      ∃ pid ∈ (m.attachWebSocket o sessionId result).1.running, session'.clangd = some pid := by
  have hopen := has_cleanup_of_session hw hget
  have hclosed : ∀ {m' : LspSessionManager} {closeCode closeReason},
      m'.cleanupPromises = m.cleanupPromises →
      (m'.closeSession sessionId closeCode closeReason).1.sessions.get sessionId = none := by
    intro m' closeCode closeReason hcleanup
    simp only [closeSession, hcleanup, hopen, Bool.false_eq_true, if_false, performCleanup]
    split
    · next hnone => exact hnone
    · exact (OrderedMap.get_delete ..).trans (if_pos rfl)
  simp only [attachWebSocket, hget, hstate, ne_eq, not_true_eq_false, if_false] at hget' ⊢
  cases result with
  | throws => exact absurd rfl hresult
  | running =>
    have hget' := hget'.symm.trans (get_update ..)
    cases hget'
    exact ⟨rfl, m.nextPid, List.mem_append_right _ (List.mem_singleton_self _), rfl⟩
  | withoutStreams | failed =>
    have hnone := hget'.symm.trans (hclosed rfl)
    cases hnone

end React

end LspSessionManager

/-! ### Sessions with an adapter -/

namespace Service

variable {o : SessionManagerOptions} {layout : Layout} {now : Int} {s s' : Service}
  {adapters : OrderedMap JsString Attached} {sessionId id : JsString}

def hasAdapter (s : Service) (sessionId : JsString) : Prop := s.adapters.get sessionId ≠ none

theorem hasAdapter_of_get {attached : Attached} (h : s.adapters.get id = some attached) :
    s.hasAdapter id := by
  rw [hasAdapter, h]
  exact Option.some_ne_none _

theorem actOn_eq_none (adapters : OrderedMap JsString Attached) (id : JsString) (action : Action) :
    (actOn adapters id action).get sessionId = none ↔ adapters.get sessionId = none := by
  unfold actOn
  split
  · rfl
  · next hget =>
    split
    · rfl
    · rw [OrderedMap.get_set]
      split
      · next heq => simp [heq, hget]
      · rfl

theorem disposeClosed_eq_none (events : List ManagerEvent) :
    (disposeClosed events adapters).get sessionId = none ↔ adapters.get sessionId = none := by
  unfold disposeClosed
  induction events generalizing adapters with
  | nil => rfl
  | cons event events ih =>
    rw [List.foldl_cons, ih]
    split
    · exact actOn_eq_none ..
    · rfl

theorem adaptersAfter_ne_none {action : ManagerAction}
    (h : (s.adaptersAfter layout action).get id ≠ none) : s.hasAdapter id ∨
      ∃ session result, action = .attachWebSocket id result ∧ result ≠ .throws ∧
        s.manager.sessions.get id = some session ∧ session.state = .authorized := by
  unfold adaptersAfter at h
  split at h
  · next sessionId result =>
    split at h
    · exact .inl h
    · next session hget =>
      split at h
      · next hstate =>
        rw [OrderedMap.get_set] at h
        split at h
        · next heq =>
          subst heq
          exact .inr ⟨session, result, rfl, hstate.2, hget, hstate.1⟩
        · exact .inl h
      · exact .inl h
  · exact .inl fun hnone => h ((actOn_eq_none ..).2 hnone)
  · exact .inl h

/-- Sessions with an adapter were created, and those in the map are connected and have a clangd
that runs. -/
structure Served (s : Service) : Prop where
  wellKeyed : s.manager.WellKeyed
  owned : Owned s.manager.sessions s.manager.nextPid
  created : ∀ {id}, s.hasAdapter id → id ∈ createdIds s.manager.issued
  connected : ∀ {id session}, s.hasAdapter id → s.manager.sessions.get id = some session →
    session.state = .connected ∧ ∃ pid ∈ s.manager.running, session.clangd = some pid

theorem Served.new (now : Int) : Served (.new now) where
  wellKeyed := .empty
  owned := .empty
  created h := absurd rfl h
  connected h := absurd rfl h

theorem Served.kept (h : s.Served) {action : ManagerAction}
    {r : LspSessionManager × List ManagerEvent} (hreact : s.manager.react o action = some r) :
    s.manager.Kept s.hasAdapter (fun id => s.manager.endsWait id action = true) r.1 :=
  LspSessionManager.react_kept h.wellKeyed h.owned h.created (fun hP hget => (h.connected hP hget).1)
    hreact

theorem Served.runManager (h : s.Served) {action : ManagerAction}
    (hs : s.runManager o layout action = some s') : s'.Served := by
  obtain ⟨r, hreact, rfl⟩ := Option.map_eq_some_iff.1 hs
  have hcreated : createdIds s.manager.issued ⊆ createdIds r.1.issued :=
    LspSessionManager.react_invariant (I := fun m => createdIds s.manager.issued ⊆ createdIds m.issued)
      hreact (List.Subset.refl _) fun ih hs => List.Subset.trans ih (LspSessionManager.createdIds_step hs)
  have hadapter : ∀ {id}, hasAdapter ⟨r.1, disposeClosed r.2 (s.adaptersAfter layout action)⟩ id →
      s.hasAdapter id ∨ ∃ session result, action = .attachWebSocket id result ∧ result ≠ .throws ∧
        s.manager.sessions.get id = some session ∧ session.state = .authorized :=
    fun h => adaptersAfter_ne_none fun hnone => h ((disposeClosed_eq_none _).2 hnone)
  refine ⟨LspSessionManager.react_invariant hreact h.wellKeyed fun ih hs => ih.step hs,
    LspSessionManager.react_invariant (I := fun m => Owned m.sessions m.nextPid) hreact h.owned
      LspSessionManager.Owned.step, fun hP => hcreated ?_, fun hP hget => ?_⟩
  · rcases hadapter hP with hP | ⟨session, result, -, -, hget, -⟩
    · exact h.created hP
    · exact (h.wellKeyed.session (by rw [hget]; exact Option.some_ne_none _)).2
  · rcases hadapter hP with hP | ⟨session, result, rfl, hresult, hbefore, hstate⟩
    · -- the session had its clangd before, and the call keeps it running
      obtain ⟨before, hbefore, hclangd, hstate, hrunning⟩ := (h.kept hreact).session hP hget
      obtain ⟨hconnected, pid, hmem, hpid⟩ := h.connected hP hbefore
      exact ⟨hstate hconnected, pid, hrunning pid hmem hpid, hclangd.trans hpid⟩
    · cases hreact
      exact LspSessionManager.attachWebSocket_running h.wellKeyed hbefore hstate hresult hget

theorem Served.runAdapter (h : s.Served) {action : Action}
    (hs : s.runAdapter o layout id action = some s') : s'.Served := by
  obtain ⟨session, adapter, adapter', hget, -, hs⟩ := runAdapter_cases hs
  -- the adapters are those of the same sessions
  have hadapter : ∀ {id'}, hasAdapter { s with adapters := s.adapters.set id ⟨session, adapter'⟩ } id' →
      s.hasAdapter id' := by
    intro id' hP hnone
    refine hP ((OrderedMap.get_set ..).trans ?_)
    rw [if_neg, hnone]
    rintro rfl
    rw [hget] at hnone
    cases hnone
  have hset : Served { s with adapters := s.adapters.set id ⟨session, adapter'⟩ } :=
    ⟨h.wellKeyed, h.owned, fun hP => h.created (hadapter hP), fun hP => h.connected (hadapter hP)⟩
  rcases hs with rfl | ⟨closeCode, reason, hs⟩
  · exact hset
  · exact hset.runManager hs

/-- `rm` starts for a session with an adapter only where the wait for its clangd ends. -/
theorem Served.removal (h : s.Served) {action : ManagerAction}
    {r : LspSessionManager × List ManagerEvent} (hreact : s.manager.react o action = some r)
    (hP : s.hasAdapter id) (hstarted : r.1.removalStarted id = true) :
    s.manager.removalStarted id = true ∨ s.manager.endsWait id action = true := by
  rcases (h.kept hreact).removal hP hstarted with hstarted | hends | ⟨session, hget, hstopped⟩
  · exact .inl hstarted
  · exact .inr hends
  · obtain ⟨-, pid, hmem, hpid⟩ := h.connected hP hget
    exact absurd hpid (hstopped pid hmem)

theorem Served.removal_adapter (h : s.Served) {action : Action}
    (hs : s.runAdapter o layout sessionId action = some s') (hP : s.hasAdapter id)
    (hstarted : s'.manager.removalStarted id = true) : s.manager.removalStarted id = true := by
  obtain ⟨session, adapter, adapter', hget, -, hs⟩ := runAdapter_cases hs
  rcases hs with rfl | ⟨closeCode, reason, hs⟩
  · exact hstarted
  · obtain ⟨r, hreact, rfl⟩ := Option.map_eq_some_iff.1 hs
    exact (h.removal hreact hP hstarted).resolve_right nofun

end Service

/-! ### Nothing is written once the removal has started -/

/-- When the wait for the clangd of a session ends, the chain of its adapter has nothing more to
write, and no update arrives for the chain once `rm` has started. -/
def Service.removesSettled (s : Service) : ServiceAction → Bool
  | .manager action => s.adapters.entries.all fun (sessionId, attached) =>
      !s.manager.endsWait sessionId action || attached.adapter.settled
  | .adapter sessionId action => !s.manager.removalStarted sessionId ||
      (s.adapters.get sessionId).all fun attached =>
        !attached.adapter.takesUpdate attached.session action

namespace Service

variable {o : SessionManagerOptions} {layout : Layout} {now : Int} {s s' : Service}
  {sessionId : JsString}

theorem served {C : Service → ServiceAction → Prop}
    (h : ReachableWhen (serviceSystem o layout now) C s) : s.Served := by
  refine h.invariant (.new now) fun {s s' a} _ ih _ hs => ?_
  cases a with
  | manager action => exact Served.runManager ih hs
  | adapter id action => exact Served.runAdapter ih hs

/-- The chains of sessions whose workspace is being removed have nothing more to write. -/
theorem settled_of_removalStarted
    (h : ReachableWhen (serviceSystem o layout now) (fun s a => removesSettled s a = true) s) :
    ∀ sessionId, s.manager.removalStarted sessionId = true → Settled s.adapters sessionId := by
  refine ReachableWhen.invariant (I := fun s => ∀ sessionId,
    s.manager.removalStarted sessionId = true → Settled s.adapters sessionId) h ?_ ?_
  · intro sessionId _ attached hget
    cases hget
  · intro s s' a hr ih hc hs sessionId hstarted
    cases a with
    | manager action =>
      have hs : s.runManager o layout action = some s' := hs
      refine Settled.runManager (fun attached hget => ?_) hs
      obtain ⟨r, hreact, rfl⟩ := Option.map_eq_some_iff.1 hs
      rcases (served hr).removal hreact (hasAdapter_of_get hget) hstarted with hstarted | hends
      · exact ih sessionId hstarted attached hget
      · have hsettled := List.all_eq_true.1 hc _ (OrderedMap.mem_entries.2 hget)
        simpa [hends] using hsettled
    | adapter id action =>
      have hs : s.runAdapter o layout id action = some s' := hs
      have hbefore : ∀ {attached}, s.adapters.get sessionId = some attached →
          s.manager.removalStarted sessionId = true :=
        fun hget => (served hr).removal_adapter hs (hasAdapter_of_get hget) hstarted
      refine Settled.runAdapter (fun attached hget => ih sessionId (hbefore hget) attached hget) hs ?_
      rintro rfl session adapter hget
      simpa [removesSettled, hbefore hget, hget] using hc

/-- No write or rename starts once the removal of the workspace has started. -/
theorem no_write_once_removal_started {a : ServiceAction}
    (h : ReachableWhen (serviceSystem o layout now) (fun s a => removesSettled s a = true) s)
    (hwrite : s.startsWrite a = some sessionId) : s.manager.removalStarted sessionId = false := by
  by_contra hstarted
  have hsettled := settled_of_removalStarted h sessionId (Bool.eq_true_of_not_eq_false hstarted)
  cases a with
  | manager => cases hwrite
  | adapter id action =>
    obtain ⟨attached, hget, hwrite⟩ := Option.bind_eq_some_iff.1 hwrite
    obtain ⟨adapter', hstep, hwrite⟩ := Option.bind_eq_some_iff.1 hwrite
    split at hwrite
    · next hprogress =>
      cases hwrite
      obtain ⟨r, hreact, rfl⟩ := Option.map_eq_some_iff.1 hstep
      have hnone := (react_effect hreact).progress_of_settled (hsettled attached hget)
      rcases hprogress with ⟨-, hstaging⟩ | ⟨hstaging, -⟩
      · exact hnone.2 hstaging
      · exact hnone.1 hstaging
    · cases hwrite

end Service

namespace Sample

def layout : Layout := fun _ => (js "file:///workspace", js "/workspace")

def attached : List ServiceAction :=
  ([ManagerAction.createSession ⟨Browser.emptySession.files, js "v1", js "ip"⟩ (js "s1"),
      .creationSettles (js "s1") true [], .creationSettles (js "s1") true [],
      .creationSettles (js "s1") true [], .creationSettles (js "s1") true (js "n1")] ++
    open_ "s1" "v1" "n1").map .manager ++
  [Action.message (Browser.send (Browser.initializeRequest (layout []).1)) false, .start none,
    .message (Browser.send Browser.initialized) false, .start none,
    .message (Browser.send (Browser.didOpen Browser.mainUri 1 (js "int x;"))) false].map
      (.adapter (js "s1"))

end Sample

namespace Service

theorem sample_update_is_written_in_time : ∃ s : Service,
    s.startsWrite (.adapter (js "s1") (.start none)) = some (js "s1") ∧
      s.manager.removalStarted (js "s1") = false := by
  obtain ⟨s, hr, hp⟩ := reachableWhen_of_execute (f := step (Sample.options 8) Sample.layout)
    (i := .new 0) (c := removesSettled) Sample.attached
    (p := fun s => s.startsWrite (.adapter (js "s1") (.start none)) = some (js "s1"))
    (by decide +kernel)
  exact ⟨s, of_decide_eq_true hp, no_write_once_removal_started hr (of_decide_eq_true hp)⟩

/-- The update is being written when the browser goes away. clangd exits first, and the update is
renamed in the workspace that is being removed. -/
theorem update_is_renamed_during_removal : ∃ s,
    Reachable (serviceSystem (Sample.options 8) Sample.layout 0) s ∧
      s.manager.removalStarted (js "s1") = true ∧
      s.startsWrite (.adapter (js "s1") (.settle true)) = some (js "s1") := by
  obtain ⟨s, hr, hp⟩ := reachable_of_execute (f := step (Sample.options 8) Sample.layout)
    (i := .new 0) (Sample.attached ++ [.adapter (js "s1") (.start none),
      .adapter (js "s1") .close, .manager (.processExits 0)])
    (p := fun s => s.manager.removalStarted (js "s1") ∧
      s.startsWrite (.adapter (js "s1") (.settle true)) = some (js "s1")) (by decide +kernel)
  exact ⟨s, hr, of_decide_eq_true hp⟩

end Service

end SmartC.Lsp
