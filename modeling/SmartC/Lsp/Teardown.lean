import SmartC.Lsp.Reservations

/-!
# Processes and workspaces of closed sessions

A session gives up its place when it leaves the map, while its clangd and its
workspace are still there. So the limit on sessions bounds the processes only
as long as those that outlive their session leave room, and `shutdown`, which waits for the
sessions of the map, leaves nothing behind only if there is nothing else to wait for.
-/

namespace SmartC.Lsp

open Transition

variable {o : SessionManagerOptions} {now : Int} {m m' : LspSessionManager} {c : Change}

/-! ### Processes -/

def LspSessionManager.owns (m : LspSessionManager) (pid : Nat) : Bool :=
  m.sessions.entries.any fun entry => entry.2.clangd = some pid

/-- The processes whose session has left the map. -/
def LspSessionManager.outlived (m : LspSessionManager) : List Nat :=
  m.running.filter fun pid => !m.owns pid

/-- Where clangd is spawned, the sessions of the map and the processes that have outlived theirs
are no more than the limit. -/
def spawnsWithRoom (o : SessionManagerOptions) (m : LspSessionManager) : ManagerAction → Bool
  | .attachWebSocket sessionId .running | .attachWebSocket sessionId .withoutStreams =>
    (m.sessions.get sessionId).all (fun session => session.state ≠ .authorized) ||
      m.sessions.size + m.outlived.length ≤ o.maxSessions
  | _ => true

structure Spawned (sessions : OrderedMap JsString ManagedSession) (running : List Nat)
    (nextPid : Nat) : Prop where
  nodup : running.Nodup
  bounded : ∀ pid ∈ running, pid < nextPid
  unspawned : ∀ {id session}, sessions.get id = some session → session.state ≠ .connected →
    session.clangd = none

namespace Spawned

variable {sessions : OrderedMap JsString ManagedSession} {running : List Nat} {nextPid : Nat}
  {id : JsString} {session session' : ManagedSession}

theorem update (h : Spawned sessions running nextPid)
    (hsession : session'.state ≠ .connected → session'.clangd = none) :
    Spawned (sessions.set id session') running nextPid where
  nodup := h.nodup
  bounded := h.bounded
  unspawned hget := by
    rw [OrderedMap.get_set] at hget
    split at hget
    · cases hget
      exact hsession
    · exact h.unspawned hget

theorem close (h : Spawned sessions running nextPid) (id : JsString) :
    Spawned (sessions.delete id) running nextPid where
  nodup := h.nodup
  bounded := h.bounded
  unspawned hget := by
    rw [OrderedMap.get_delete] at hget
    split at hget
    · cases hget
    · exact h.unspawned hget

theorem filter (h : Spawned sessions running nextPid) (p : Nat → Bool) :
    Spawned sessions (running.filter p) nextPid where
  nodup := h.nodup.filter _
  bounded pid' hmem := h.bounded pid' (List.mem_filter.1 hmem).1
  unspawned := h.unspawned

theorem skip (h : Spawned sessions running nextPid) : Spawned sessions running (nextPid + 1) where
  nodup := h.nodup
  bounded pid hmem := (h.bounded pid hmem).trans (Nat.lt_succ_self _)
  unspawned := h.unspawned

theorem spawn (h : Spawned sessions running nextPid) :
    Spawned sessions (running ++ [nextPid]) (nextPid + 1) where
  nodup := by
    refine List.nodup_append.2 ⟨h.nodup, List.nodup_singleton _, ?_⟩
    rintro pid hmem pid' hmem' rfl
    exact (h.bounded pid hmem).ne (List.mem_singleton.1 hmem')
  bounded pid hmem := by
    rcases List.mem_append.1 hmem with hmem | hmem
    · exact (h.bounded pid hmem).trans (Nat.lt_succ_self _)
    · rw [List.mem_singleton.1 hmem]
      exact Nat.lt_succ_self _
  unspawned := h.unspawned

theorem length_le (h : Spawned sessions running nextPid)
    (howned : ∀ pid ∈ running, ∃ id session, sessions.get id = some session ∧
      session.clangd = some pid) : running.length ≤ sessions.size := by
  have hsubset : running ⊆ sessions.entries.filterMap fun entry => entry.2.clangd := by
    intro pid hmem
    obtain ⟨id, session, hget, hclangd⟩ := howned pid hmem
    exact List.mem_filterMap.2 ⟨(id, session), OrderedMap.mem_entries.2 hget, hclangd⟩
  exact (List.subperm_of_subset h.nodup hsubset).length_le.trans (List.length_filterMap_le _ _)

theorem length_le_of_attach (h : Spawned sessions running nextPid)
    (hget : sessions.get id = some session) (hstate : session.state = .authorized)
    (howned : ∀ pid ∈ running, ∃ id session, sessions.get id = some session ∧
      session.clangd = some pid) (hsession' : session'.clangd = some nextPid)
    (hconnected : session'.state = .connected) :
    (running ++ [nextPid]).length ≤ sessions.size := by
  have hunspawned := h.unspawned hget (by rw [hstate]; decide)
  have hspawned : Spawned (sessions.set id session') (running ++ [nextPid]) (nextPid + 1) :=
    h.spawn.update fun hne => absurd hconnected hne
  have hsize : (sessions.set id session').size = sessions.size := by
    rw [OrderedMap.size_set, if_pos (by rw [OrderedMap.has, hget]; rfl)]
  refine hsize ▸ hspawned.length_le fun pid hmem => ?_
  rcases List.mem_append.1 hmem with hmem | hmem
  · obtain ⟨id', owner, howner, hclangd⟩ := howned pid hmem
    refine ⟨id', owner, ?_, hclangd⟩
    rw [OrderedMap.get_set, if_neg, howner]
    rintro rfl
    rw [hget] at howner
    cases howner
    rw [hunspawned] at hclangd
    cases hclangd
  · rw [List.mem_singleton.1 hmem]
    exact ⟨id, session', by rw [OrderedMap.get_set, if_pos rfl], hsession'⟩

end Spawned

namespace LspSessionManager

theorem Spawned.step (h : Spawned m.sessions m.running m.nextPid) (hs : Change.Step o m c m') :
    Spawned m'.sessions m'.running m'.nextPid := by
  cases hs with
  | reserve hfresh hreserve =>
    obtain ⟨-, -, -, -, rfl⟩ := reserve_ok hreserve
    exact h
  | create => exact h.update fun _ => rfl
  | authorize hget hstate =>
    have hclangd := h.unspawned hget (by rw [hstate]; decide)
    exact h.update fun _ => hclangd
  | touch hget =>
    have hclangd := h.unspawned hget
    exact h.update hclangd
  | attach hget hstate result =>
    cases result with
    | throws => exact h.update fun hne => absurd rfl hne
    | running => exact h.spawn.update fun hne => absurd rfl hne
    | withoutStreams => exact h.spawn.update fun hne => absurd rfl hne
    | failed => exact h.skip.update fun hne => absurd rfl hne
  | close | expire => exact h.close _
  | exit pid => exact h.filter _
  | mkdir | write | fail | abandon | drop | proceed | remove | shutDown | pass | report => exact h

theorem spawned {D : LspSessionManager → Change → Prop}
    (h : ReachableWhen (changeSystem o now) D m) : Spawned m.sessions m.running m.nextPid := by
  refine h.invariant ⟨List.nodup_nil, ?_, ?_⟩ fun _ ih _ hs => Spawned.step ih hs
  · exact fun pid hmem => absurd hmem List.not_mem_nil
  · intro id session hget
    cases hget

theorem running_attach {sessionId : JsString} {session : ManagedSession}
    (h : Spawned m.sessions m.running m.nextPid)
    (hget : m.sessions.get sessionId = some session) (hstate : session.state = .authorized)
    (hroom : m.sessions.size + m.outlived.length ≤ o.maxSessions) :
    (m.running ++ [m.nextPid]).length ≤ o.maxSessions := by
  have howned : (m.running.filter m.owns ++ [m.nextPid]).length ≤ m.sessions.size := by
    have hattached : ({ session with clangd := some m.nextPid, state := .connected } :
        ManagedSession).clangd = some m.nextPid := rfl
    refine (h.filter m.owns).length_le_of_attach hget hstate (fun pid hmem => ?_) hattached rfl
    obtain ⟨⟨id, owner⟩, hentry, hclangd⟩ := List.any_eq_true.1 (List.mem_filter.1 hmem).2
    exact ⟨id, owner, OrderedMap.mem_entries.1 hentry, of_decide_eq_true hclangd⟩
  have hsplit : m.running.length = (m.running.filter m.owns).length + m.outlived.length :=
    List.length_eq_length_filter_add _
  simp only [List.length_append, List.length_singleton] at howned ⊢
  omega

theorem running_step (hspawned : Spawned m.sessions m.running m.nextPid)
    (h : m.running.length ≤ o.maxSessions)
    (hc : Change.Meets (fun m a => spawnsWithRoom o m a = true) m c)
    (hs : Change.Step o m c m') : m'.running.length ≤ o.maxSessions := by
  cases hs with
  | reserve hfresh hreserve =>
    obtain ⟨-, -, -, -, rfl⟩ := reserve_ok hreserve
    exact h
  | @attach sessionId session hget hstate result =>
    have hroom : result = .running ∨ result = .withoutStreams →
        m.sessions.size + m.outlived.length ≤ o.maxSessions := by
      intro hresult
      have hroom := hc (.attachWebSocket sessionId result) rfl
      rcases hresult with rfl | rfl
      all_goals
        simpa only [spawnsWithRoom, hget, Option.all_some, hstate, ne_eq, not_true_eq_false,
          decide_false, Bool.false_or, decide_eq_true_eq] using hroom
    cases result with
    | throws | failed => exact h
    | running => exact running_attach hspawned hget hstate (hroom (.inl rfl))
    | withoutStreams => exact running_attach hspawned hget hstate (hroom (.inr rfl))
  | exit pid => exact (List.length_filter_le _ _).trans h
  | create | authorize | touch | close | expire | mkdir | write | fail | abandon | drop | proceed
  | remove | shutDown | pass | report => exact h

theorem processes_within_the_session_limit
    (h : ReachableWhen (managerSystem o now) (fun m a => spawnsWithRoom o m a = true) m) :
    m.running.length ≤ o.maxSessions := by
  refine ReachableWhen.invariant (I := fun m => m.running.length ≤ o.maxSessions)
    (reachable_changes h) (Nat.zero_le _) fun hr ih hc hs => ?_
  exact running_step (spawned hr) ih hc hs

/-- With two places, a session is opened while the clangd of a closed one still runs. -/
theorem two_processes_for_two_places : ∃ m : LspSessionManager, m.running = [0, 1] ∧
    m.running.length ≤ (Sample.options 2).maxSessions := by
  obtain ⟨m, hr, hp⟩ := reachableWhen_of_execute (f := step (Sample.options 2)) (i := .new 0)
    (c := spawnsWithRoom (Sample.options 2)) (Sample.create "s1" "v1" "n1" ++
      Sample.open_ "s1" "v1" "n1" ++ [.closeSession (js "s1") 1000 "Session closed"] ++
      Sample.create "s2" "v2" "n2" ++ Sample.open_ "s2" "v2" "n2")
    (p := fun m => m.running = [0, 1]) (by decide +kernel)
  exact ⟨m, of_decide_eq_true hp, processes_within_the_session_limit hr⟩

/-- A session is closed, and its place is taken while its clangd has not exited. -/
theorem two_processes_for_one_session :
    ∃ m, Reachable (managerSystem (Sample.options 1) 0) m ∧
      (Sample.options 1).maxSessions < m.running.length := by
  obtain ⟨m, hr, hp⟩ := reachable_of_execute (f := step (Sample.options 1)) (i := .new 0)
    (Sample.create "s1" "v1" "n1" ++ Sample.open_ "s1" "v1" "n1" ++
      [.closeSession (js "s1") 1000 "Session closed"] ++
      Sample.create "s2" "v2" "n2" ++ Sample.open_ "s2" "v2" "n2")
    (p := fun m => (Sample.options 1).maxSessions < m.running.length) (by decide +kernel)
  exact ⟨m, hr, of_decide_eq_true hp⟩

end LspSessionManager

/-! ### Workspaces -/

/-- Where `shutdown` is called, no session is being created that has not failed, and the workspaces
that sessions have left are those of sessions of the map. -/
def shutsDownAlone (m : LspSessionManager) : ManagerAction → Bool
  | .shutdown => m.creating.entries.all (fun entry => entry.2.at_ = .removing) &&
      m.workspaces.all fun id => m.sessions.has id || !(createdIds m.issued).contains id
  | _ => true

/-- Sessions of the map have their workspaces, and so have those whose files are written. -/
structure Housed (sessions : OrderedMap JsString ManagedSession)
    (creating : OrderedMap JsString Creation) (workspaces : List JsString) : Prop where
  session : ∀ {id}, sessions.get id ≠ none → id ∈ workspaces
  writing : ∀ {id creation pending}, creating.get id = some creation →
    creation.at_ = .writes pending → id ∈ workspaces

namespace Housed

variable {sessions : OrderedMap JsString ManagedSession} {creating : OrderedMap JsString Creation}
  {workspaces : List JsString} {id : JsString}

theorem set_creating (h : Housed sessions creating workspaces) {creation : Creation}
    (hat : ∀ pending, creation.at_ = .writes pending → id ∈ workspaces) :
    Housed sessions (creating.set id creation) workspaces where
  session := h.session
  writing hget hwrites := by
    rw [OrderedMap.get_set] at hget
    split at hget
    · next heq =>
      cases hget
      exact heq ▸ hat _ hwrites
    · exact h.writing hget hwrites

theorem set_session (h : Housed sessions creating workspaces) (hid : id ∈ workspaces)
    (session : ManagedSession) : Housed (sessions.set id session) creating workspaces where
  session hget := by
    rw [OrderedMap.get_set] at hget
    split at hget
    · next heq => exact heq ▸ hid
    · exact h.session hget
  writing := h.writing

theorem delete_session (h : Housed sessions creating workspaces) (id : JsString) :
    Housed (sessions.delete id) creating workspaces where
  session hget := by
    rw [OrderedMap.get_delete] at hget
    split at hget
    · exact absurd rfl hget
    · exact h.session hget
  writing := h.writing

theorem delete_creating (h : Housed sessions creating workspaces) (id : JsString) :
    Housed sessions (creating.delete id) workspaces where
  session := h.session
  writing hget hwrites := by
    rw [OrderedMap.get_delete] at hget
    split at hget
    · cases hget
    · exact h.writing hget hwrites

theorem mono (h : Housed sessions creating workspaces) {workspaces' : List JsString}
    (hsub : ∀ id ∈ workspaces, sessions.get id ≠ none ∨ creating.get id ≠ none → id ∈ workspaces') :
    Housed sessions creating workspaces' where
  session hget := hsub _ (h.session hget) (.inl hget)
  writing hget hwrites := hsub _ (h.writing hget hwrites) (.inr (by simp [hget]))

theorem remove (h : Housed sessions creating workspaces) (hsession : sessions.get id = none)
    (hcreating : creating.get id = none) (succeeds : Bool) :
    Housed sessions creating (if succeeds then workspaces.filter (· ≠ id) else workspaces) := by
  refine h.mono fun id' hmem hused => ?_
  split
  · refine List.mem_filter.2 ⟨hmem, decide_eq_true ?_⟩
    rintro rfl
    exact hused.elim (absurd hsession) (absurd hcreating)
  · exact hmem

end Housed

def Shutdown.Awaits (workspaces : List JsString) (issued : List Issue) : Shutdown → Prop
  | .waiting sessionIds => ∀ id ∈ workspaces, id ∈ createdIds issued → id ∈ sessionIds
  | .resolved => ∀ id ∈ workspaces, id ∉ createdIds issued
  | .rejected => True

theorem Shutdown.Awaits.mono {workspaces workspaces' : List JsString} {issued : List Issue}
    {call : Shutdown} (h : call.Awaits workspaces issued)
    (hsub : ∀ id ∈ workspaces', id ∈ workspaces) : call.Awaits workspaces' issued := by
  cases call with
  | waiting sessionIds => exact fun id hmem => h id (hsub id hmem)
  | resolved => exact fun id hmem => h id (hsub id hmem)
  | rejected => trivial

theorem Shutdown.Awaits.settle {workspaces : List JsString} {issued : List Issue} {call : Shutdown}
    (h : call.Awaits workspaces issued) (sessionId : JsString) (succeeds : Bool) :
    (LspSessionManager.settleShutdown sessionId succeeds call).Awaits
      (if succeeds then workspaces.filter (· ≠ sessionId) else workspaces) issued := by
  have hsub : ∀ id ∈ (if succeeds then workspaces.filter (· ≠ sessionId) else workspaces),
      id ∈ workspaces := by
    intro id hmem
    split at hmem
    · exact (List.mem_filter.1 hmem).1
    · exact hmem
  cases call with
  | resolved => exact fun id hmem => h id (hsub id hmem)
  | rejected => trivial
  | waiting sessionIds =>
    by_cases hid : sessionIds.contains sessionId = true
    · cases succeeds with
      | false =>
        simp only [LspSessionManager.settleShutdown, hid, if_true, Bool.not_false]
        trivial
      | true =>
        have hrest : ∀ id ∈ workspaces.filter (· ≠ sessionId),
            id ∈ createdIds issued → id ∈ sessionIds.filter (· ≠ sessionId) := by
          intro id hmem hcreated
          obtain ⟨hmem, hne⟩ := List.mem_filter.1 hmem
          exact List.mem_filter.2 ⟨h id hmem hcreated, hne⟩
        simp only [LspSessionManager.settleShutdown, hid, if_true, Bool.not_true, Bool.false_eq_true,
          if_false]
        split
        · next hempty =>
          intro id hmem hcreated
          have hmem' := hrest id hmem hcreated
          rw [List.isEmpty_iff.1 hempty] at hmem'
          exact absurd hmem' List.not_mem_nil
        · exact hrest
    · simp only [LspSessionManager.settleShutdown, hid]
      exact fun id hmem => h id (hsub id hmem)

namespace LspSessionManager

theorem Housed.step (h : Housed m.sessions m.creating m.workspaces) (hw : m.WellKeyed)
    (hs : Change.Step o m c m') : Housed m'.sessions m'.creating m'.workspaces := by
  have hcreating : ∀ {id creation}, m.creating.get id = some creation → m.sessions.get id = none := by
    intro id creation hget
    by_contra hsome
    exact hw.creating (WellKeyed.creating_ne_none hget) (hw.session hsome).2
  have hhoused : ∀ {id session}, m.sessions.get id = some session → id ∈ m.workspaces :=
    fun hget => h.session (by simp [hget])
  cases hs with
  | reserve hfresh hreserve =>
    obtain ⟨-, -, -, -, rfl⟩ := reserve_ok hreserve
    exact h.set_creating (by simp)
  | @mkdir sessionId creation hget hat pending =>
    have hmore : Housed m.sessions m.creating (m.workspaces ++ [sessionId]) :=
      h.mono fun id hmem _ => List.mem_append_left _ hmem
    exact hmore.set_creating fun _ _ => List.mem_append_right _ (List.mem_singleton_self _)
  | write hget hat =>
    have hmem := h.writing hget hat
    exact h.set_creating fun _ _ => hmem
  | fail hget => exact h.set_creating (by simp)
  | create hget hat =>
    have hmem := h.writing hget hat
    exact (h.set_session hmem _).delete_creating _
  | @abandon sessionId creation hget succeeds =>
    refine (h.delete_creating sessionId).remove (hcreating hget) ?_ succeeds
    rw [OrderedMap.get_delete, if_pos rfl]
  | authorize hget | touch hget =>
    have hmem := hhoused hget
    exact h.set_session hmem _
  | attach hget hstate result =>
    have hmem := hhoused hget
    cases result <;> exact h.set_session hmem _
  | close | expire => exact h.delete_session _
  -- an id that is being cleaned up is neither in the map nor being created
  | @remove sessionId cleanup hget succeeds =>
    refine h.remove ?_ ?_ succeeds
    · by_contra hsome
      rw [(hw.session hsome).1] at hget
      cases hget
    · by_contra hsome
      exact hw.creating hsome (hw.cleanup hget).2
  | drop | exit | proceed | shutDown | pass | report => exact h

structure ShuttingDown (m : LspSessionManager) : Prop where
  creating : m.shuttingDown = true → ∀ id creation, m.creating.get id = some creation →
    creation.at_ = .removing
  calls : ∀ call ∈ m.shutdowns, m.shuttingDown = true ∧ call.Awaits m.workspaces m.issued

theorem ShuttingDown.of_running (hrunning : m.shuttingDown = false) (hcalls : m.shutdowns = []) :
    m.ShuttingDown where
  creating h := by
    rw [hrunning] at h
    cases h
  calls call hmem := by
    rw [hcalls] at hmem
    exact absurd hmem List.not_mem_nil

theorem ShuttingDown.running (h : m.ShuttingDown) (hrunning : m.shuttingDown = false) :
    m.shutdowns = [] := by
  refine List.eq_nil_iff_forall_not_mem.2 fun call hmem => ?_
  have hdown := (h.calls call hmem).1
  rw [hrunning] at hdown
  cases hdown

theorem ShuttingDown.running_of_creating (h : m.ShuttingDown) {id : JsString} {creation : Creation}
    (hget : m.creating.get id = some creation) (hat : creation.at_ ≠ .removing) :
    m.shuttingDown = false := by
  cases hdown : m.shuttingDown with
  | false => rfl
  | true => exact absurd (h.creating hdown id creation hget) hat

theorem shutDown_awaits (hc : shutsDownAlone m .shutdown = true) :
    (∀ id creation, m.creating.get id = some creation → creation.at_ = .removing) ∧
    ∀ id ∈ m.workspaces, id ∈ createdIds m.issued →
      id ∈ m.sessions.entries.map Prod.fst := by
  simp only [shutsDownAlone, Bool.and_eq_true, List.all_eq_true, Bool.or_eq_true,
    decide_eq_true_eq, Bool.not_eq_true', List.contains_eq_mem, decide_eq_false_iff_not] at hc
  refine ⟨fun id creation hget => ?_, fun id hmem hcreated => ?_⟩
  · exact hc.1 (id, creation) (OrderedMap.mem_entries.2 hget)
  · have hhas := (hc.2 id hmem).resolve_right (not_not.2 hcreated)
    exact OrderedMap.mem_keys_iff.2 (Option.isSome_iff_ne_none.1 hhas)

theorem ShuttingDown.step (h : m.ShuttingDown)
    (hc : Change.Meets (fun m a => shutsDownAlone m a = true) m c) (hs : Change.Step o m c m') :
    m'.ShuttingDown := by
  cases hs with
  | reserve hfresh hreserve =>
    obtain ⟨hrunning, -, -, -, rfl⟩ := reserve_ok hreserve
    exact .of_running hrunning (h.running hrunning)
  | mkdir hget hat | write hget hat | create hget hat =>
    -- a creation that has not failed goes on only before `shutdown`
    have hrunning := h.running_of_creating hget (by rw [hat]; nofun)
    exact .of_running hrunning (h.running hrunning)
  | fail =>
    refine ⟨fun hdown id creation hget => ?_, h.calls⟩
    rw [OrderedMap.get_set] at hget
    split at hget
    · cases hget
      rfl
    · exact h.creating hdown id creation hget
  | @abandon sessionId creation hget succeeds =>
    refine ⟨fun hdown id creation hget => ?_, fun call hmem => ?_⟩
    · simp only [release, OrderedMap.get_delete] at hget
      split at hget
      · cases hget
      · exact h.creating hdown id creation hget
    · obtain ⟨hdown, hawaits⟩ := h.calls call hmem
      refine ⟨hdown, hawaits.mono fun id hid => ?_⟩
      dsimp only at hid
      split at hid
      · exact (List.mem_filter.1 hid).1
      · exact hid
  | attach hget hstate result => cases result <;> exact ⟨h.creating, h.calls⟩
  | @remove sessionId cleanup hget succeeds =>
    refine ⟨h.creating, fun call hmem => ?_⟩
    obtain ⟨before, hbefore, rfl⟩ := List.mem_map.1 hmem
    obtain ⟨hdown, hawaits⟩ := h.calls before hbefore
    exact ⟨hdown, hawaits.settle sessionId succeeds⟩
  | shutDown =>
    -- the workspaces that are left are those that the call awaits
    obtain ⟨hcreating, hworkspaces⟩ := shutDown_awaits (hc _ rfl)
    refine ⟨fun _ => hcreating, fun call hmem => ⟨rfl, ?_⟩⟩
    rcases List.mem_append.1 hmem with hmem | hmem
    · exact (h.calls call hmem).2
    · rw [List.mem_singleton.1 hmem]
      split
      · next hempty =>
        intro id hmem hcreated
        have := hworkspaces id hmem hcreated
        rw [List.isEmpty_iff.1 hempty] at this
        exact absurd this List.not_mem_nil
      · exact hworkspaces
  | authorize | touch | close | expire | drop | exit | proceed | pass | report =>
    exact ⟨h.creating, h.calls⟩

theorem resolved_change (h : .resolved ∈ m.shutdowns) (hs : Change.Step o m c m') :
    .resolved ∈ m'.shutdowns := by
  cases hs with
  | reserve hfresh hreserve =>
    obtain ⟨-, -, -, -, rfl⟩ := reserve_ok hreserve
    exact h
  | attach hget hstate result => cases result <;> exact h
  | remove => exact List.mem_map.2 ⟨.resolved, h, rfl⟩
  | shutDown => exact List.mem_append_left _ h
  | mkdir | write | fail | create | abandon | authorize | touch | close | expire | drop | exit
  | proceed | pass | report => exact h

theorem resolved_step {a : ManagerAction} (h : .resolved ∈ m.shutdowns)
    (hs : m.step o a = some m') : .resolved ∈ m'.shutdowns := by
  obtain ⟨r, hreact, rfl⟩ := Option.map_eq_some_iff.1 hs
  exact react_invariant (I := fun m => .resolved ∈ m.shutdowns) hreact h resolved_change

theorem shutdown_leaves_nothing_behind {later : LspSessionManager}
    (h : ReachableWhen (managerSystem o now) (fun m a => shutsDownAlone m a = true) m)
    (hresolved : .resolved ∈ m.shutdowns) (as : List ManagerAction)
    (hlater : execute (guarded shutsDownAlone (step o)) m as = some later) :
    (∀ id, later.sessions.get id = none) ∧ ∀ id ∈ createdIds later.issued, id ∉ later.workspaces := by
  have hchanges := reachable_changes (ReachableWhen.execute h (fun _ _ _ h => h) as hlater)
  have hstill : .resolved ∈ later.shutdowns := by
    refine execute_induction (I := fun m => .resolved ∈ m.shutdowns) (fun hm hs => ?_) hresolved hlater
    simp only [guarded] at hs
    split at hs
    · exact resolved_step hm hs
    · cases hs
  have hhoused : Housed later.sessions later.creating later.workspaces :=
    ReachableWhen.invariant (I := fun m => Housed m.sessions m.creating m.workspaces) hchanges
      ⟨fun h => absurd rfl h, fun h => by cases h⟩ fun hr ih _ hs => Housed.step ih (wellKeyed hr) hs
  have hdown : later.ShuttingDown :=
    hchanges.invariant (.of_running rfl rfl) fun _ ih hc hs => ih.step hc hs
  have hnone : ∀ id ∈ later.workspaces, id ∉ createdIds later.issued :=
    (hdown.calls .resolved hstill).2
  refine ⟨fun id => ?_, fun id hcreated hmem => hnone id hmem hcreated⟩
  by_contra hsome
  exact hnone id (hhoused.session hsome) ((wellKeyed hchanges).session hsome).2

/-- A session is open when `shutdown` is called, and is waited for. -/
theorem sample_session_is_shut_down : ∃ m : LspSessionManager,
    js "s1" ∈ createdIds m.issued ∧ .resolved ∈ m.shutdowns ∧ m.sessions.get (js "s1") = none ∧
      js "s1" ∉ m.workspaces := by
  obtain ⟨m, hr, hp⟩ := reachableWhen_of_execute (f := step (Sample.options 8)) (i := .new 0)
    (c := shutsDownAlone) (Sample.create "s1" "v1" "n1" ++ Sample.open_ "s1" "v1" "n1" ++
      [.shutdown, .processExits 0, .removalSettles (js "s1") true])
    (p := fun m => js "s1" ∈ createdIds m.issued ∧ .resolved ∈ m.shutdowns) (by decide +kernel)
  obtain ⟨hcreated, hresolved⟩ := of_decide_eq_true hp
  have hnothing := shutdown_leaves_nothing_behind hr hresolved [] rfl
  exact ⟨m, hcreated, hresolved, hnothing.1 _, hnothing.2 _ hcreated⟩

/-- `shutdown` resolves while a session is created, which then opens, and while a session is
cleaned up, whose workspace is still there. -/
theorem shutdown_misses_sessions :
    (∃ m, Reachable (managerSystem (Sample.options 8) 0) m ∧ .resolved ∈ m.shutdowns ∧
      (m.sessions.get (js "s1")).isSome = true) ∧
    ∃ m, Reachable (managerSystem (Sample.options 8) 0) m ∧ .resolved ∈ m.shutdowns ∧
      js "s1" ∈ createdIds m.issued ∧ js "s1" ∈ m.workspaces := by
  constructor
  · obtain ⟨m, hr, hp⟩ := reachable_of_execute (f := step (Sample.options 8)) (i := .new 0)
      [.createSession ⟨[], js "v1", js "ip"⟩ (js "s1"), .creationSettles (js "s1") true [],
        .shutdown, .creationSettles (js "s1") true (js "n1")]
      (p := fun m => .resolved ∈ m.shutdowns ∧ (m.sessions.get (js "s1")).isSome) (by decide +kernel)
    exact ⟨m, hr, of_decide_eq_true hp⟩
  · obtain ⟨m, hr, hp⟩ := reachable_of_execute (f := step (Sample.options 8)) (i := .new 0)
      (Sample.create "s1" "v1" "n1" ++ [.closeSession (js "s1") 1000 "Session closed", .shutdown])
      (p := fun m => .resolved ∈ m.shutdowns ∧ js "s1" ∈ createdIds m.issued ∧ js "s1" ∈ m.workspaces)
      (by decide +kernel)
    exact ⟨m, hr, of_decide_eq_true hp⟩

end LspSessionManager

end SmartC.Lsp
