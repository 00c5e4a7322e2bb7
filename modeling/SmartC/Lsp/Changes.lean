import SmartC.Lsp.Manager
import SmartC.Transition

/-!
# The elementary changes of the session manager

Every operation of the manager is a sequence of a few elementary changes, each
of which leaves the manager consistent: a session is reserved, created,
authorized, attached, touched or closed, a cleanup goes on, a process exits.
What holds of the manager in every run is proved for these changes and follows
for the operations.
-/

namespace SmartC.Lsp

inductive Change
  | reserve (sessionId : JsString) (request : InternalCreateLspSessionRequest)
  | advance (sessionId : JsString) (next : CreateAt)
  | create (payload : TicketPayload)
  | abandon (sessionId : JsString) (succeeds : Bool)
  | authorize (sessionId path ticket : JsString) (payload : TicketPayload)
  | touch (sessionId : JsString)
  | attach (sessionId : JsString) (result : SpawnResult)
  | close (sessionId : JsString) (closeCode : Nat) (closeReason : String)
  | drop (handle : Nat)
  | exit (pid : Nat)
  | proceed (sessionId : JsString) (next : CleanupAt)
  | remove (sessionId : JsString) (succeeds : Bool)
  | shutDown
  | pass
  | report (event : ManagerEvent)

namespace LspSessionManager

variable (o : SessionManagerOptions) (m : LspSessionManager)

/-- The session gets its socket, and clangd as far as it can be spawned. -/
def connect (sessionId : JsString) (session : ManagedSession) : SpawnResult → LspSessionManager
  | .throws => m.update sessionId { session with state := .connected }
  | .running | .withoutStreams =>
    (m.spawnClangd true).update sessionId
      { session with state := .connected, clangd := some m.nextPid }
  | .failed =>
    (m.spawnClangd false).update sessionId
      { session with state := .connected, clangd := some m.nextPid }

def newPayload (sessionId : JsString) (request : InternalCreateLspSessionRequest)
    (nonce : JsString) : TicketPayload :=
  ⟨sessionId, request.visitorId, js "/ws/lsp/" ++ sessionId, nonce, m.now, m.now + o.ticketTtlMs⟩

end LspSessionManager

def ManagerEvent.isMinor : ManagerEvent → Bool
  | .limited _ | .unauthorized .. | .discarded .. | .unattached _ => true
  | _ => false

namespace Change

open LspSessionManager

/-- What each change demands of the manager, and what it makes of it. -/
inductive Step (o : SessionManagerOptions) (m : LspSessionManager) :
    Change → LspSessionManager → Prop
  | reserve {sessionId request reserved} (hfresh : m.isFresh sessionId = true)
      (hreserve : m.reserve o request.visitorId request.clientIp = .ok reserved) :
      Step o m (.reserve sessionId request)
        { reserved with creating := m.creating.set sessionId ⟨sessionId, request, .mkdir⟩ }
  | mkdir {sessionId creation} (hget : m.creating.get sessionId = some creation)
      (hat : creation.at_ = .mkdir) (pending : Nat) :
      Step o m (.advance sessionId (.writes pending)) { m with
        creating := m.creating.set sessionId ⟨sessionId, creation.request, .writes pending⟩
        workspaces := m.workspaces ++ [sessionId] }
  | write {sessionId creation} (hget : m.creating.get sessionId = some creation)
      {pending pending' : Nat} (hat : creation.at_ = .writes pending) :
      Step o m (.advance sessionId (.writes pending')) { m with
        creating := m.creating.set sessionId ⟨sessionId, creation.request, .writes pending'⟩ }
  | fail {sessionId creation} (hget : m.creating.get sessionId = some creation) :
      Step o m (.advance sessionId .removing) { m with
        creating := m.creating.set sessionId ⟨sessionId, creation.request, .removing⟩ }
  | create {sessionId creation} (hget : m.creating.get sessionId = some creation) {pending : Nat}
      (hat : creation.at_ = .writes pending) (nonce : JsString) :
      Step o m (.create (m.newPayload o sessionId creation.request nonce))
        (m.finishCreation o sessionId creation.request nonce).1
  | abandon {sessionId creation} (hget : m.creating.get sessionId = some creation)
      (succeeds : Bool) :
      Step o m (.abandon sessionId succeeds)
        { m.release sessionId creation.request.visitorId creation.request.clientIp with
          workspaces := if succeeds then m.workspaces.filter (· ≠ sessionId) else m.workspaces }
  | authorize {sessionId session path ticket payload} (hget : m.sessions.get sessionId = some session)
      (hstate : session.state = .waiting)
      (hverify : o.ticketService.verify m.now ticket sessionId session.visitorId path = .ok payload)
      (hnonce : payload.nonce = session.ticketNonce) :
      Step o m (.authorize sessionId path ticket payload)
        ((m.update sessionId { session with state := .authorized }).clearTimeout session.ticketTimer)
  | touch {sessionId session} (hget : m.sessions.get sessionId = some session)
      (hstate : session.state = .authorized ∨ session.state = .connected) :
      Step o m (.touch sessionId) (m.refreshIdleTimer o sessionId session)
  | attach {sessionId session} (hget : m.sessions.get sessionId = some session)
      (hstate : session.state = .authorized) (result : SpawnResult) :
      Step o m (.attach sessionId result) (m.connect sessionId session result)
  | close {sessionId session} (hget : m.sessions.get sessionId = some session)
      (hopen : m.cleanupPromises.get sessionId = none) (closeCode : Nat) (closeReason : String) :
      Step o m (.close sessionId closeCode closeReason) (m.dispose sessionId session)
  | expire {sessionId session timer kind} (hget : m.sessions.get sessionId = some session)
      (hopen : m.cleanupPromises.get sessionId = none) (htimer : timer ∈ m.timers.armed)
      (hcallback : timer.callback = some (sessionId, kind)) (closeCode : Nat)
      (closeReason : String) :
      Step o m (.close sessionId closeCode closeReason)
        ((m.clearTimeout timer.handle).dispose sessionId session)
  | drop {timer} (htimer : timer ∈ m.timers.armed)
      (hcallback : ∀ sessionId kind, timer.callback = some (sessionId, kind) →
        m.sessions.get sessionId = none ∨ m.cleanupPromises.get sessionId ≠ none) :
      Step o m (.drop timer.handle) (m.clearTimeout timer.handle)
  | exit (pid : Nat) : Step o m (.exit pid) { m with running := m.running.filter (· ≠ pid) }
  | proceed {sessionId cleanup} (hget : m.cleanupPromises.get sessionId = some cleanup)
      (next : CleanupAt) :
      Step o m (.proceed sessionId next) { m with
        cleanupPromises := m.cleanupPromises.set sessionId { cleanup with at_ := next } }
  | remove {sessionId cleanup} (hget : m.cleanupPromises.get sessionId = some cleanup)
      (succeeds : Bool) :
      Step o m (.remove sessionId succeeds) { m with
        cleanupPromises := m.cleanupPromises.delete sessionId
        workspaces := if succeeds then m.workspaces.filter (· ≠ sessionId) else m.workspaces
        shutdowns := m.shutdowns.map (settleShutdown sessionId succeeds) }
  | shutDown : Step o m .shutDown { m with
      shuttingDown := true
      shutdowns := m.shutdowns ++ [if (m.sessions.entries.map Prod.fst).isEmpty then .resolved
        else .waiting (m.sessions.entries.map Prod.fst)] }
  | pass (ms : Nat) (now : Int) : Step o m .pass { m with time := m.time + ms, now := now }
  | report {event : ManagerEvent} (hminor : event.isMinor = true) : Step o m (.report event) m

def events (o : SessionManagerOptions) (m : LspSessionManager) : Change → List ManagerEvent
  | .create payload =>
    [.created payload (o.ticketService.ticket payload) (m.now + o.absoluteTtlMs)]
  | .abandon sessionId _ => [.creationFailed sessionId]
  | .authorize sessionId _ _ payload => [.authorized sessionId payload m.now]
  | .attach sessionId .running | .attach sessionId .withoutStreams =>
    [.attached sessionId (some m.nextPid)]
  | .attach sessionId _ => [.attached sessionId none]
  | .close sessionId closeCode closeReason => [.cleanup sessionId closeCode closeReason]
  | .report event => [event]
  | _ => []

def action : Change → Option ManagerAction
  | .authorize sessionId path ticket _ => some (.authorizeWebSocket sessionId path (some ticket))
  | .attach sessionId result => some (.attachWebSocket sessionId result)
  | .shutDown => some .shutdown
  | _ => none

/-- A condition on the calls, read as one on the changes. -/
def Meets (C : LspSessionManager → ManagerAction → Prop) (m : LspSessionManager) (c : Change) :
    Prop :=
  ∀ a ∈ c.action, C m a

theorem Meets.of_action_none {C : LspSessionManager → ManagerAction → Prop} {m : LspSessionManager}
    {c : Change} (h : c.action = none) : Meets C m c := by
  simp [Meets, h]

theorem Meets.of_action_some {C : LspSessionManager → ManagerAction → Prop} {m : LspSessionManager}
    {c : Change} {a : ManagerAction} (hc : c.action = some a) (h : C m a) : Meets C m c := by
  simpa [Meets, hc] using h

end Change

def changeSystem (o : SessionManagerOptions) (now : Int) :
    Transition.System LspSessionManager Change where
  init := .new now
  step := Change.Step o

/-! ### Every operation is a sequence of changes -/

namespace LspSessionManager

open Transition

variable {o : SessionManagerOptions} {now : Int} {C : LspSessionManager → ManagerAction → Prop}
  {m : LspSessionManager}

/-- Changes that lead from one state of the manager to another one, and what is seen of them. -/
abbrev Leads (o : SessionManagerOptions) (now : Int) (C : LspSessionManager → ManagerAction → Prop) :
    LspSessionManager → List ManagerEvent → LspSessionManager → Prop :=
  PathWhen (changeSystem o now) (Change.Meets C) (Change.events o)

theorem Leads.change {c : Change} {m' : LspSessionManager} (h : Change.Step o m c m')
    (hc : c.action = none) : Leads o now C m (c.events o m) m' :=
  PathWhen.single (.of_action_none hc) h

theorem Leads.report {event : ManagerEvent} (h : event.isMinor = true) :
    Leads o now C m [event] m :=
  Leads.change (.report h) rfl

theorem has_eq_false {m : OrderedMap JsString Cleanup} {sessionId : JsString}
    (h : ¬ m.has sessionId = true) : m.get sessionId = none := by
  simpa [OrderedMap.has] using h

theorem closeSession_leads (sessionId : JsString) (closeCode : Nat) (closeReason : String) :
    Leads o now C m (m.closeSession sessionId closeCode closeReason).2
      (m.closeSession sessionId closeCode closeReason).1 := by
  unfold closeSession
  split
  · exact .nil
  · next hopen =>
    unfold performCleanup
    split
    · exact .nil
    · next session hget => exact Leads.change (.close hget (has_eq_false hopen) _ _) rfl

theorem closeAll_leads (closeCode : Nat) (closeReason : String) (sessionIds : List JsString)
    (m : LspSessionManager) :
    Leads o now C m (closeAll closeCode closeReason sessionIds m).2
      (closeAll closeCode closeReason sessionIds m).1 := by
  induction sessionIds generalizing m with
  | nil => exact .nil
  | cons sessionId rest ih => exact (closeSession_leads sessionId closeCode closeReason).append (ih _)

theorem createSession_leads {request : InternalCreateLspSessionRequest} {sessionId : JsString}
    (hfresh : m.isFresh sessionId = true) :
    Leads o now C m (m.createSession o request sessionId).2 (m.createSession o request sessionId).1 := by
  unfold createSession
  split
  · exact Leads.report rfl
  · next reserved hreserve =>
    have hcreating : reserved.creating = m.creating := by
      unfold reserve at hreserve
      dsimp only at hreserve
      repeat' split at hreserve
      all_goals cases hreserve
      rfl
    rw [hcreating]
    exact Leads.change (.reserve hfresh hreserve) rfl

theorem creationSettles_leads {sessionId nonce : JsString} {succeeds : Bool}
    {r : LspSessionManager × List ManagerEvent}
    (h : m.creationSettles o sessionId succeeds nonce = some r) : Leads o now C m r.2 r.1 := by
  unfold creationSettles at h
  split at h
  · cases h
  · next id request at_ hget =>
    dsimp only at h
    split at h
    · split at h <;> cases h
      · exact Leads.change (.mkdir hget rfl _) rfl
      · exact Leads.change (.fail hget) rfl
    · split at h
      · cases h
        exact Leads.change (.fail hget) rfl
      · split at h <;> cases h
        · exact Leads.change (.write hget rfl) rfl
        · exact Leads.change (.create hget rfl nonce) rfl
    · cases h
      cases succeeds
      · exact Leads.change (.abandon hget false) rfl
      · exact Leads.change (.abandon hget true) rfl

theorem authorizeWebSocket_leads {sessionId path : JsString} {ticket : Option JsString}
    (hc : C m (.authorizeWebSocket sessionId path ticket)) :
    Leads o now C m (m.authorizeWebSocket o sessionId path ticket).2
      (m.authorizeWebSocket o sessionId path ticket).1 := by
  unfold authorizeWebSocket
  dsimp only
  split
  · exact Leads.report rfl
  · exact Leads.report rfl
  · next session ticket hget =>
    split
    · exact Leads.report rfl
    · next hstate =>
      split
      · exact Leads.report rfl
      · exact Leads.report rfl
      · next payload hverify =>
        split
        · exact Leads.report rfl
        · next hnonce =>
          have hauthorize := Change.Step.authorize hget (not_not.1 hstate) hverify (not_not.1 hnonce)
          have hget' : ((m.update sessionId { session with state := .authorized }).clearTimeout
              session.ticketTimer).sessions.get sessionId =
                some { session with state := .authorized } := by
            simp [clearTimeout, update, OrderedMap.get_set]
          have hmeets : Change.Meets C m (.authorize sessionId path ticket payload) :=
            .of_action_some rfl hc
          exact PathWhen.cons hmeets hauthorize
            (Leads.change (.touch hget' (.inl rfl)) rfl)

theorem discardSessionAfterInvalidHandshake_leads {sessionId path : JsString}
    {ticket : Option JsString} :
    Leads o now C m (m.discardSessionAfterInvalidHandshake o sessionId path ticket).2
      (m.discardSessionAfterInvalidHandshake o sessionId path ticket).1 := by
  unfold discardSessionAfterInvalidHandshake
  split
  · split
    · exact Leads.report rfl
    · split
      · exact Leads.report rfl
      · split
        · exact Leads.report rfl
        · exact PathWhen.append (Leads.report rfl) (closeSession_leads _ _ _)
  · exact Leads.report rfl

theorem attachWebSocket_leads {sessionId : JsString} {result : SpawnResult}
    (hc : C m (.attachWebSocket sessionId result)) :
    Leads o now C m (m.attachWebSocket o sessionId result).2
      (m.attachWebSocket o sessionId result).1 := by
  unfold attachWebSocket
  split
  · exact Leads.report rfl
  · next session hget =>
    split
    · exact Leads.report rfl
    · next hstate =>
      have hattach := Change.Step.attach (o := o) hget (not_not.1 hstate) result
      have hmeets : Change.Meets C m (.attach sessionId result) := .of_action_some rfl hc
      cases result with
      | throws => exact PathWhen.single hmeets hattach
      | running =>
        refine PathWhen.cons hmeets hattach (Leads.change (.touch ?_ (.inr rfl)) rfl)
        simp [connect, update, OrderedMap.get_set]
      | withoutStreams => exact PathWhen.cons hmeets hattach (closeSession_leads _ _ _)
      | failed =>
        have htouch : Leads o now C (m.connect sessionId session .failed) []
            ((m.connect sessionId session .failed).refreshIdleTimer o sessionId
              { session with state := .connected, clangd := some m.nextPid }) := by
          refine Leads.change (.touch ?_ (.inr rfl)) rfl
          simp [connect, update, OrderedMap.get_set]
        exact PathWhen.cons hmeets hattach (htouch.append (closeSession_leads _ _ _))

theorem touchSession_leads {sessionId : JsString} :
    Leads o now C m [] (m.touchSession o sessionId) := by
  unfold touchSession
  split
  · next session hget =>
    split
    · next hstate => exact Leads.change (.touch hget (.inr hstate)) rfl
    · exact .nil
  · exact .nil

theorem timerFires_leads {handle : Nat} {r : LspSessionManager × List ManagerEvent}
    (h : m.timerFires handle = some r) : Leads o now C m r.2 r.1 := by
  unfold timerFires at h
  split at h
  · cases h
  · next timer hfind =>
    have htimer := List.mem_of_find?_eq_some hfind
    have hhandle : timer.handle = handle := by simpa using List.find?_some hfind
    subst hhandle
    split at h
    · cases h
    · dsimp only at h
      split at h
      · next hcallback =>
        cases h
        exact Leads.change (.drop htimer (by simp [hcallback])) rfl
      · next sessionId kind hcallback =>
        cases h
        rw [closeSession]
        split
        · next hclosing =>
          refine Leads.change (.drop htimer fun sessionId' kind' heq => .inr ?_) rfl
          rw [hcallback] at heq
          cases heq
          simpa [OrderedMap.has, clearTimeout, Option.isSome_iff_ne_none] using hclosing
        · next hopen =>
          rw [performCleanup]
          split
          · next hget =>
            refine Leads.change (.drop htimer fun sessionId' kind' heq => .inl ?_) rfl
            rw [hcallback] at heq
            cases heq
            exact hget
          · next session hget =>
            exact Leads.change
              (Change.Step.expire (m := m) hget (has_eq_false hopen) htimer hcallback _ _) rfl

theorem startRemoval_leads (sessionId : JsString) :
    Leads o now C m [] (m.startRemoval sessionId) := by
  unfold startRemoval
  split
  · exact .nil
  · next cleanup hget => exact Leads.change (.proceed hget .removing) rfl

theorem processExits_leads {pid : Nat} {r : LspSessionManager × List ManagerEvent}
    (h : m.processExits pid = some r) : Leads o now C m r.2 r.1 := by
  unfold processExits at h
  split at h
  · have hexit : Leads o now C m [] { m with running := m.running.filter (· ≠ pid) } :=
      Leads.change (.exit pid) rfl
    dsimp only at h
    split at h
    · cases h
      exact hexit.append (closeSession_leads _ _ _)
    · split at h
      · cases h
        exact hexit.append (startRemoval_leads _)
      · cases h
        exact hexit
  · cases h

theorem gracePeriodEnds_leads {sessionId : JsString} {m' : LspSessionManager}
    (h : m.gracePeriodEnds sessionId = some m') : Leads o now C m [] m' := by
  unfold gracePeriodEnds at h
  split at h
  · next session hget =>
    split at h <;> cases h
    · exact Leads.change (.proceed hget .killing) rfl
    · exact startRemoval_leads sessionId
  · cases h
    exact startRemoval_leads sessionId
  · cases h

theorem removalSettles_leads {sessionId : JsString} {succeeds : Bool} {m' : LspSessionManager}
    (h : m.removalSettles sessionId succeeds = some m') : Leads o now C m [] m' := by
  unfold removalSettles at h
  split at h
  · next session hget =>
    cases h
    exact Leads.change (.remove hget succeeds) rfl
  · cases h

theorem shutdown_leads (hc : C m .shutdown) : Leads o now C m m.shutdown.2 m.shutdown.1 :=
  PathWhen.cons (.of_action_some rfl hc) Change.Step.shutDown (closeAll_leads _ _ _ _)

theorem react_leads {a : ManagerAction} {r : LspSessionManager × List ManagerEvent}
    (hc : C m a) (h : m.react o a = some r) : Leads o now C m r.2 r.1 := by
  cases a with
  | createSession request sessionId =>
    simp only [react] at h
    split at h
    · next hfresh =>
      cases h
      exact createSession_leads hfresh
    · cases h
  | creationSettles => exact creationSettles_leads h
  | authorizeWebSocket =>
    cases h
    exact authorizeWebSocket_leads hc
  | discardSessionAfterInvalidHandshake =>
    cases h
    exact discardSessionAfterInvalidHandshake_leads
  | attachWebSocket =>
    cases h
    exact attachWebSocket_leads hc
  | touchSession =>
    cases h
    exact touchSession_leads
  | closeSession =>
    cases h
    exact closeSession_leads _ _ _
  | timerFires => exact timerFires_leads h
  | processExits => exact processExits_leads h
  | gracePeriodEnds =>
    obtain ⟨m₁, hm₁, rfl⟩ := Option.map_eq_some_iff.1 h
    exact gracePeriodEnds_leads hm₁
  | removalSettles =>
    obtain ⟨m₁, hm₁, rfl⟩ := Option.map_eq_some_iff.1 h
    exact removalSettles_leads hm₁
  | shutdown =>
    cases h
    exact shutdown_leads hc
  | tick ms =>
    cases h
    exact Leads.change (.pass ms m.now) rfl
  | setClock now' =>
    cases h
    exact Leads.change (.pass 0 now') rfl

/-- What every elementary change keeps, every call keeps. -/
theorem react_invariant {I : LspSessionManager → Prop} {a : ManagerAction}
    {r : LspSessionManager × List ManagerEvent} (h : m.react o a = some r) (hm : I m)
    (step : ∀ {m m' c}, I m → Change.Step o m c m' → I m') : I r.1 := by
  have hpath : Leads o 0 (fun _ _ => True) m r.2 r.1 := react_leads trivial h
  exact hpath.invariant hm step

/-- Every run of the manager is a run of elementary changes, of which the same is seen. -/
theorem recorded_changes {log : List ManagerEvent}
    (h : RecordedWhen (managerSystem o now) C (events o) m log) :
    RecordedWhen (changeSystem o now) (Change.Meets C) (Change.events o) m log := by
  refine RecordedWhen.refine (S := managerSystem o now) id rfl (fun {m m' a} hc hs => ?_) h
  obtain ⟨r, hreact, rfl⟩ := Option.map_eq_some_iff.1 hs
  have hevents : events o m a = r.2 := by rw [events, hreact]; rfl
  rw [hevents]
  exact react_leads hc hreact

theorem reachable_changes (h : ReachableWhen (managerSystem o now) C m) :
    ReachableWhen (changeSystem o now) (Change.Meets C) m := by
  obtain ⟨log, hlog⟩ := h.recorded (events o)
  exact (recorded_changes hlog).reachable

end LspSessionManager

end SmartC.Lsp
