import SmartC.Lsp.Reservations

/-!
# One socket for one session

The events of a session bring it from one state to the next. In a run in which no
ticket is forged, a session is authorized at most once, by the payload that was
issued for it and in time, and it is attached at most once and only then. A session
whose cleanup has started is neither.
-/

namespace SmartC.Lsp

open Transition

def ManagerEvent.brings (sessionId : JsString) : ManagerEvent → Option SessionState
  | .created payload _ _ => if sessionId = payload.sessionId then some .waiting else none
  | .authorized id _ _ => if sessionId = id then some .authorized else none
  | .attached id _ => if sessionId = id then some .connected else none
  | .cleanup id _ _ => if sessionId = id then some .disposing else none
  | _ => none

def states (sessionId : JsString) (log : List ManagerEvent) : List SessionState :=
  log.filterMap (ManagerEvent.brings sessionId)

/-- The states that a session may go through: one after the other, and to `disposing` from each. -/
def lifecycles : List (List SessionState) :=
  [[], [.waiting], [.waiting, .disposing], [.waiting, .authorized],
    [.waiting, .authorized, .disposing], [.waiting, .authorized, .connected],
    [.waiting, .authorized, .connected, .disposing]]

def Entitled (before : List ManagerEvent) : ManagerEvent → Prop
  | .authorized sessionId payload now =>
    (∃ ticket expiresAt, .created payload ticket expiresAt ∈ before) ∧
      payload.sessionId = sessionId ∧ now < payload.expiresAt ∧
      .disposing ∉ states sessionId before
  | .attached sessionId _ =>
    (∃ payload now, .authorized sessionId payload now ∈ before) ∧
      .disposing ∉ states sessionId before
  | _ => True

/-- The bytes that a signature is accepted for were signed by `issue`. -/
def unforgedTickets (o : SessionManagerOptions) (m : LspSessionManager) : ManagerAction → Bool
  | .authorizeWebSocket _ _ (some ticket) | .discardSessionAfterInvalidHandshake _ _ (some ticket) =>
    o.ticketService.unforged (m.issued.map Issue.payload) ticket
  | _ => true

/-- The state of a session, which is `disposing` from its cleanup on. -/
def stage (sessions : OrderedMap JsString ManagedSession) (issued : List Issue) (id : JsString) :
    Option SessionState :=
  match sessions.get id with
  | some session => some session.state
  | none => if id ∈ createdIds issued then some .disposing else none

section Stage

variable {sessions : OrderedMap JsString ManagedSession} {issued : List Issue} {id : JsString}
  {session session' : ManagedSession}

theorem stage_of_get (hget : sessions.get id = some session) :
    stage sessions issued id = some session.state := by
  rw [stage, hget]

theorem stage_set (id' : JsString) : stage (sessions.set id session) issued id' =
    if id' = id then some session.state else stage sessions issued id' := by
  by_cases hid : id' = id
  · simp [stage, OrderedMap.get_set, hid]
  · simp [stage, OrderedMap.get_set, hid]

theorem stage_update (hget : sessions.get id = some session) (hstate : session'.state = session.state)
    (id' : JsString) : stage (sessions.set id session') issued id' = stage sessions issued id' := by
  rw [stage_set]
  split
  · next heq => rw [heq, stage_of_get hget, hstate]
  · rfl

theorem stage_delete (hid : id ∈ createdIds issued) (id' : JsString) :
    stage (sessions.delete id) issued id' =
      if id' = id then some .disposing else stage sessions issued id' := by
  by_cases heq : id' = id
  · simp [stage, OrderedMap.get_delete, heq, hid]
  · simp [stage, OrderedMap.get_delete, heq]

theorem stage_create {issue : Issue} (hissue : issue.payload.sessionId = id) (id' : JsString) :
    stage (sessions.set id session) (issued ++ [issue]) id' =
      if id' = id then some session.state else stage sessions issued id' := by
  rw [stage_set]
  split
  · rfl
  · next hne => simp [stage, createdIds, hissue, hne]

end Stage

/-- What the events of a run say about the manager: the states that each session has gone
through, and the tickets that were issued. -/
structure Told (sessions : OrderedMap JsString ManagedSession) (issued : List Issue)
    (log : List ManagerEvent) : Prop where
  lifecycle : ∀ id, states id log ∈ lifecycles
  stage : ∀ id, (states id log).getLast? = stage sessions issued id
  issued : ∀ issue ∈ issued, ∃ ticket expiresAt, .created issue.payload ticket expiresAt ∈ log
  entitled : EachAfter Entitled log

namespace Told

variable {sessions sessions' : OrderedMap JsString ManagedSession} {issued : List Issue}
  {log : List ManagerEvent} {id : JsString} {session session' : ManagedSession}

theorem states_append (id : JsString) (log more : List ManagerEvent) :
    states id (log ++ more) = states id log ++ states id more :=
  List.filterMap_append

theorem lifecycle_append (h : Told sessions issued log) (event : ManagerEvent) (state : SessionState)
    (hbrings : ∀ id', event.brings id' = if id' = id then some state else none)
    (hmoves : ∀ l ∈ lifecycles, l.getLast? = Lsp.stage sessions issued id → l ++ [state] ∈ lifecycles)
    (id' : JsString) : states id' (log ++ [event]) ∈ lifecycles ∧
      (states id' (log ++ [event])).getLast? =
        if id' = id then some state else Lsp.stage sessions issued id' := by
  have hstates : states id' [event] = if id' = id then [state] else [] := by
    rw [states, List.filterMap_cons, hbrings]
    split
    · next heq =>
      split at heq
      · cases heq
      · next hne => simp [hne]
    · next heq =>
      split at heq
      · next hid =>
        cases heq
        simp [hid]
      · cases heq
  rw [states_append, hstates]
  split
  · next heq =>
    subst heq
    exact ⟨hmoves _ (h.lifecycle id') (h.stage id'), by simp⟩
  · rw [List.append_nil]
    exact ⟨h.lifecycle id', h.stage id'⟩

theorem quiet (h : Told sessions issued log)
    (hstage : ∀ id, Lsp.stage sessions' issued id = Lsp.stage sessions issued id)
    {events : List ManagerEvent} (hevents : ∀ event ∈ events, ∀ before, Entitled before event)
    (hbrings : ∀ event ∈ events, ∀ id, event.brings id = none) :
    Told sessions' issued (log ++ events) := by
  have hstates : ∀ id, states id (log ++ events) = states id log := by
    intro id
    rw [states_append, states, states, List.filterMap_eq_nil_iff.2 fun event hmem => hbrings event hmem id,
      List.append_nil]
  constructor
  · exact fun id => (hstates id).symm ▸ h.lifecycle id
  · exact fun id => by rw [hstates, h.stage, hstage]
  · intro issue hissue
    obtain ⟨ticket, expiresAt, hmem⟩ := h.issued issue hissue
    exact ⟨ticket, expiresAt, List.mem_append_left _ hmem⟩
  · refine h.entitled.append_all fun before event after hsplit => hevents event ?_ _
    rw [hsplit]
    simp

theorem advance (h : Told sessions issued log) (event : ManagerEvent) (state : SessionState)
    (hbrings : ∀ id', event.brings id' = if id' = id then some state else none)
    (hmoves : ∀ l ∈ lifecycles, l.getLast? = Lsp.stage sessions issued id → l ++ [state] ∈ lifecycles)
    (hstage : ∀ id', Lsp.stage sessions' issued id' =
      if id' = id then some state else Lsp.stage sessions issued id')
    (hentitled : Entitled log event) : Told sessions' issued (log ++ [event]) := by
  have happend := h.lifecycle_append event state hbrings hmoves
  constructor
  · exact fun id' => (happend id').1
  · exact fun id' => (happend id').2.trans (hstage id').symm
  · intro issue hissue
    obtain ⟨ticket, expiresAt, hmem⟩ := h.issued issue hissue
    exact ⟨ticket, expiresAt, List.mem_append_left _ hmem⟩
  · exact h.entitled.append hentitled

theorem create (h : Told sessions issued log) (issue : Issue) (session : ManagedSession)
    (ticket : JsString) (expiresAt : Int) (hid : issue.payload.sessionId = id)
    (hnew : sessions.get id = none) (hcreated : id ∉ createdIds issued)
    (hstate : session.state = .waiting) :
    Told (sessions.set id session) (issued ++ [issue])
      (log ++ [.created issue.payload ticket expiresAt]) := by
  subst hid
  have hnone : Lsp.stage sessions issued issue.payload.sessionId = none := by
    rw [Lsp.stage, hnew, if_neg hcreated]
  have happend := h.lifecycle_append (.created issue.payload ticket expiresAt) .waiting
    (fun _ => rfl) (by rw [hnone]; decide)
  constructor
  · exact fun id' => (happend id').1
  · intro id'
    rw [(happend id').2, stage_create rfl, hstate]
  · intro issue' hissue
    rcases List.mem_append.1 hissue with hissue | hissue
    · obtain ⟨ticket, expiresAt, hmem⟩ := h.issued issue' hissue
      exact ⟨ticket, expiresAt, List.mem_append_left _ hmem⟩
    · obtain rfl := List.mem_singleton.1 hissue
      exact ⟨ticket, expiresAt, by simp⟩
  · exact h.entitled.append trivial

theorem not_disposing (h : Told sessions issued log) {state : SessionState}
    (hstage : Lsp.stage sessions issued id = some state) (hstate : state ≠ .disposing) :
    .disposing ∉ states id log := by
  have hlast : ∀ l ∈ lifecycles, ∀ state ∈ l.getLast?, state ≠ .disposing → .disposing ∉ l := by decide
  exact hlast _ (h.lifecycle id) state ((h.stage id).trans hstage) hstate

theorem authorized_of_stage (h : Told sessions issued log)
    (hstage : Lsp.stage sessions issued id = some .authorized) :
    ∃ payload now, .authorized id payload now ∈ log := by
  have hmem : .authorized ∈ states id log := List.mem_of_getLast? ((h.stage id).trans hstage)
  obtain ⟨event, hevent, hbrings⟩ := List.mem_filterMap.1 hmem
  cases event with
  | authorized id' payload now =>
    simp only [ManagerEvent.brings] at hbrings
    split at hbrings
    · next heq => exact ⟨payload, now, heq ▸ hevent⟩
    · cases hbrings
  | created | attached | cleanup =>
    simp only [ManagerEvent.brings] at hbrings
    split at hbrings <;> cases hbrings
  | _ => cases hbrings

theorem authorize (h : Told sessions issued log) (hget : sessions.get id = some session)
    (hstate : session.state = .waiting) {payload : TicketPayload} {now : Int}
    (hissued : payload ∈ issued.map Issue.payload) (hid : payload.sessionId = id)
    (hnow : now < payload.expiresAt) :
    Told (sessions.set id { session with state := .authorized }) issued
      (log ++ [.authorized id payload now]) := by
  have hwaiting : Lsp.stage sessions issued id = some .waiting := by rw [stage_of_get hget, hstate]
  refine h.advance (.authorized id payload now) .authorized (fun _ => rfl)
    (by rw [hwaiting]; decide) stage_set ?_
  obtain ⟨issue, hissue, rfl⟩ := List.mem_map.1 hissued
  exact ⟨h.issued issue hissue, hid, hnow, h.not_disposing hwaiting nofun⟩

theorem attach (h : Told sessions issued log) (hget : sessions.get id = some session)
    (hstate : session.state = .authorized) (clangd : Option Nat) (hconnected : session'.state = .connected) :
    Told (sessions.set id session') issued (log ++ [.attached id clangd]) := by
  have hauthorized : Lsp.stage sessions issued id = some .authorized := by
    rw [stage_of_get hget, hstate]
  refine h.advance (.attached id clangd) .connected (fun _ => rfl) (by rw [hauthorized]; decide)
    (fun id' => by rw [stage_set, hconnected]) ?_
  exact ⟨h.authorized_of_stage hauthorized, h.not_disposing hauthorized nofun⟩

theorem close (h : Told sessions issued log) (hget : sessions.get id = some session)
    (hstate : session.state ≠ .disposing) (hid : id ∈ createdIds issued) (closeCode : Nat)
    (closeReason : String) :
    Told (sessions.delete id) issued (log ++ [.cleanup id closeCode closeReason]) := by
  have hmoves : ∀ state, state ≠ .disposing → ∀ l ∈ lifecycles, l.getLast? = some state →
      l ++ [.disposing] ∈ lifecycles := by
    rintro ⟨⟩ <;> decide
  refine h.advance (.cleanup id closeCode closeReason) .disposing (fun _ => rfl) ?_ (stage_delete hid)
    trivial
  rw [stage_of_get hget]
  exact hmoves _ hstate

end Told

namespace LspSessionManager

variable {o : SessionManagerOptions} {now : Int} {m m' : LspSessionManager} {c : Change}
  {log : List ManagerEvent}

theorem Told.step (h : Told m.sessions m.issued log) (hw : m.WellKeyed)
    (hc : Change.Meets (fun m a => unforgedTickets o m a = true) m c) (hs : Change.Step o m c m') :
    Told m'.sessions m'.issued (log ++ c.events o m) := by
  cases hs with
  | reserve hfresh hreserve =>
    obtain ⟨-, -, -, -, rfl⟩ := reserve_ok hreserve
    exact h.quiet (fun _ => rfl) (List.forall_mem_nil _) (List.forall_mem_nil _)
  | @create sessionId creation hget pending hat nonce =>
    have hcreated := hw.creating (WellKeyed.creating_ne_none hget)
    have hnone : m.sessions.get sessionId = none := by
      by_contra hsome
      exact hcreated (hw.session hsome).2
    exact h.create ⟨m.newPayload o sessionId creation.request nonce, m.time⟩
      (m.createManagedSession o sessionId creation.request nonce).2 _ _ rfl hnone hcreated rfl
  | authorize hget hstate hverify hnonce =>
    have hunforged := hc _ rfl
    obtain ⟨hissued, hid, -, -, hnow⟩ := TicketService.verify_ok hunforged hverify
    exact h.authorize hget hstate hissued hid hnow
  | touch hget =>
    refine h.quiet (fun id => ?_) (List.forall_mem_nil _) (List.forall_mem_nil _)
    refine stage_update hget ?_ id
    rfl
  | attach hget hstate result => cases result <;> exact h.attach hget hstate _ rfl
  | close hget =>
    exact h.close hget (hw.session_id hget).2 (hw.session (by simp [hget])).2 _ _
  | expire hget =>
    exact h.close hget (hw.session_id hget).2 (hw.session (by simp [hget])).2 _ _
  | @report event hminor =>
    have hevents : Change.events o m (.report event) = [event] := rfl
    rw [hevents]
    refine h.quiet (fun _ => rfl) ?_ ?_
    · cases event <;> simp_all [ManagerEvent.isMinor, Entitled]
    · cases event <;> simp_all [ManagerEvent.isMinor, ManagerEvent.brings]
  | abandon hget =>
    exact h.quiet (fun _ => rfl) (by simp [Change.events, Entitled])
      (by simp [Change.events, ManagerEvent.brings])
  | mkdir | write | fail | drop | exit | proceed | remove | shutDown | pass =>
    exact h.quiet (fun _ => rfl) (List.forall_mem_nil _) (List.forall_mem_nil _)

theorem told (h : RecordedWhen (managerSystem o now) (fun m a => unforgedTickets o m a = true)
    (events o) m log) : Told m.sessions m.issued log := by
  refine (recorded_changes h).invariant ⟨?_, fun _ => rfl, by simp [changeSystem, new], .nil⟩
    fun hr ih hc hs => Told.step ih (wellKeyed hr) hc hs
  intro id
  exact List.mem_cons_self

theorem countP_brings (id : JsString) (state : SessionState) (log : List ManagerEvent) :
    log.countP (fun event => event.brings id = some state) = (states id log).count state := by
  induction log with
  | nil => rfl
  | cons event log ih =>
    rw [List.countP_cons, ih, states, states, List.filterMap_cons]
    cases event.brings id with
    | none => simp
    | some state' => simp [List.count_cons]

theorem session_is_attached_once_by_its_own_ticket
    (h : RecordedWhen (managerSystem o now) (fun m a => unforgedTickets o m a = true)
      (events o) m log) :
    (∀ id, log.countP (fun event => event.brings id = some .authorized) ≤ 1 ∧
      log.countP (fun event => event.brings id = some .connected) ≤ 1) ∧
    EachAfter Entitled log ∧
    (∀ id, states id log ∈ lifecycles) ∧
    (∀ id session, m.sessions.get id = some session →
      (states id log).getLast? = some session.state) ∧
    ∀ id cleanup, m.cleanupPromises.get id = some cleanup →
      cleanup.session.state = .disposing ∧ (states id log).getLast? = some .disposing := by
  have ht := told h
  have hw := wellKeyed (recorded_changes h).reachable
  refine ⟨fun id => ?_, ht.entitled, ht.lifecycle, fun id session hget => ?_,
    fun id cleanup hget => ⟨(hw.cleanup hget).1, ?_⟩⟩
  · have honce : ∀ l ∈ lifecycles, l.count .authorized ≤ 1 ∧ l.count .connected ≤ 1 := by decide
    rw [countP_brings, countP_brings]
    exact honce _ (ht.lifecycle id)
  · rw [ht.stage, stage_of_get hget]
  · rw [ht.stage, stage]
    split
    · next session hsession =>
      rw [(hw.session (by simp [hsession])).1] at hget
      cases hget
    · rw [if_pos (hw.cleanup hget).2]

/-- The socket of a session is attached, and its ticket is tried again after that. -/
theorem sample_session_is_attached_once : ∃ log : List ManagerEvent,
    .attached (js "s1") (some 0) ∈ log ∧ .unauthorized (js "s1") 409 .ticketUsed ∈ log ∧
      log.countP (fun event => event.brings (js "s1") = some .connected) ≤ 1 := by
  obtain ⟨m, log, hr, hp⟩ := recordedWhen_of_execute (f := step (Sample.options 8)) (i := .new 0)
    (c := unforgedTickets (Sample.options 8)) (events (Sample.options 8))
    (Sample.create "s1" "v1" "n1" ++ Sample.open_ "s1" "v1" "n1" ++ Sample.open_ "s1" "v1" "n1")
    (p := fun _ log => .attached (js "s1") (some 0) ∈ log ∧
      .unauthorized (js "s1") 409 .ticketUsed ∈ log) (by decide +kernel)
  obtain ⟨hattached, hused⟩ := of_decide_eq_true hp
  exact ⟨log, hattached, hused, ((session_is_attached_once_by_its_own_ticket hr).1 (js "s1")).2⟩

end LspSessionManager

end SmartC.Lsp
