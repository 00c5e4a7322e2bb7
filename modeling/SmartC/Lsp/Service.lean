import SmartC.Lsp.Adapter
import SmartC.Lsp.Reservations

/-!
# The manager with the adapters of its sessions

A session that was attached has an adapter, whose chain of updates goes on by itself
when the session is closed: the cleanup closes the socket, stops clangd and removes
the workspace, and does not wait for the chain. So an update is written into a
workspace that is being removed unless the chain has nothing more to write by then.
-/

namespace SmartC.Lsp

open Transition

structure Attached where
  session : Session
  adapter : Adapter

structure Service where
  manager : LspSessionManager
  adapters : OrderedMap JsString Attached

inductive ServiceAction
  | manager (action : ManagerAction)
  /-- The socket, clangd, a file operation or the timer of one adapter. -/
  | adapter (sessionId : JsString) (action : Action)

/-- Where the workspace of a session is: the URI for clangd, and the path. -/
abbrev Layout := JsString → JsString × JsString

def ManagedSession.session (layout : Layout) (session : ManagedSession) : Session :=
  ⟨session.files, (layout session.id).1, (layout session.id).2⟩

namespace Service

variable (o : SessionManagerOptions) (layout : Layout) (s : Service)

def new (now : Int) : Service := ⟨.new now, .empty⟩

def actOn (adapters : OrderedMap JsString Attached) (sessionId : JsString) (action : Action) :
    OrderedMap JsString Attached :=
  match adapters.get sessionId with
  | none => adapters
  | some ⟨session, adapter⟩ =>
    match adapter.step session action with
    | none => adapters
    | some adapter => adapters.set sessionId ⟨session, adapter⟩

def disposeClosed (events : List ManagerEvent) (adapters : OrderedMap JsString Attached) :
    OrderedMap JsString Attached :=
  events.foldl (fun adapters event => match event with
    | .cleanup sessionId _ _ => actOn adapters sessionId .dispose
    | _ => adapters) adapters

/-- The adapters after a call that attaches a socket, or after a workspace was removed. Where
`spawn` throws, the adapter does not get to listen. -/
def adaptersAfter : ManagerAction → OrderedMap JsString Attached
  | .attachWebSocket sessionId result =>
    match s.manager.sessions.get sessionId with
    | none => s.adapters
    | some session =>
      if session.state = .authorized ∧ result ≠ .throws then
        s.adapters.set sessionId ⟨session.session layout, .new (session.session layout) s.manager.now⟩
      else s.adapters
  | .removalSettles sessionId true => actOn s.adapters sessionId .removeWorkspace
  | _ => s.adapters

def runManager (action : ManagerAction) : Option Service :=
  (s.manager.react o action).map fun (manager, events) =>
    ⟨manager, disposeClosed events (s.adaptersAfter layout action)⟩

/-- A closed socket receives nothing. The connection is disposed and the workspace removed by
the manager only. -/
def isPossible (adapter : Adapter) : Action → Bool
  | .message _ _ | .close => adapter.readyState ≠ .closed
  | .dispose | .removeWorkspace => false
  | _ => true

/-- Why the manager closes the session after an action of its adapter. -/
def closeReason (action : Action) (events : List Event) : Option (Nat × String) :=
  match action with
  | .close => some (1000, "Session closed")
  | _ => events.findSome? fun
    | .violated violation => some (violation.closeCode, violation.reason)
    | _ => none

def runAdapter (sessionId : JsString) (action : Action) : Option Service :=
  match s.adapters.get sessionId with
  | none => none
  | some ⟨session, adapter⟩ =>
    if !isPossible adapter action then none
    else match adapter.react session action with
      | none => none
      | some (adapter, events) =>
        let s := { s with adapters := s.adapters.set sessionId ⟨session, adapter⟩ }
        match closeReason action events with
        | none => some s
        | some (closeCode, reason) =>
          s.runManager o layout (.closeSession sessionId closeCode reason)

def step : ServiceAction → Option Service
  | .manager action => s.runManager o layout action
  | .adapter sessionId action => s.runAdapter o layout sessionId action

def startsWrite : ServiceAction → Option JsString
  | .manager _ => none
  | .adapter sessionId action => do
    let ⟨session, adapter⟩ ← s.adapters.get sessionId
    let adapter' ← adapter.step session action
    if (adapter.progress ≠ .staging ∧ adapter'.progress = .staging) ∨
        (adapter.progress = .staging ∧ adapter'.progress = .renaming) then some sessionId
    else none

end Service

/-- The cleanup of the session has come to `rm`, or has ended. -/
def LspSessionManager.removalStarted (m : LspSessionManager) (sessionId : JsString) : Bool :=
  match m.cleanupPromises.get sessionId with
  | some cleanup => cleanup.at_ = .removing
  | none => (createdIds m.issued).contains sessionId && !m.sessions.has sessionId

namespace Adapter

def pending (s : Adapter) : List Link :=
  if s.progress = .waiting then s.messageQueue else s.messageQueue.tail

/-- The chain has nothing more to write or to rename. -/
def settled (s : Adapter) : Bool :=
  s.progress ≠ .staging && (s.violated || s.pending.all fun
    | .message _ (some _) _ => false
    | _ => true)

def brings (session : Session) (s : Adapter) (a : Arrival) : Option LspDocumentUpdate :=
  match s.guard.validateClientMessage session.guardOptions a.now a.content with
  | (.ok (), guard) => guard.pendingDocumentUpdate
  | (.error _, _) => none

/-- Whether the action would put an update into the chain that the chain will write. -/
def takesUpdate (session : Session) (s : Adapter) : Action → Bool
  | .message arrival isBinary =>
    !s.violated && !isBinary && (s.brings session arrival).isSome
  | _ => false

end Adapter

def serviceSystem (o : SessionManagerOptions) (layout : Layout) (now : Int) :
    System Service ServiceAction :=
  .ofStep (.new now) (Service.step o layout)

/-! ### A settled chain stays settled -/

section Settled

variable {session : Session} {s s' : Adapter} {events : List Event}

theorem Adapter.settled_iff : s.settled = true ↔ s.progress ≠ .staging ∧
    (s.violated = true ∨ ∀ content update generation,
      Link.message content (some update) generation ∉ s.pending) := by
  simp only [Adapter.settled, Bool.and_eq_true, decide_eq_true_eq, Bool.or_eq_true, List.all_eq_true]
  refine and_congr Iff.rfl (or_congr Iff.rfl
    ⟨fun h content update generation hmem => ?_, fun h link hmem => ?_⟩)
  · exact absurd (h _ hmem) (by simp)
  · split
    · next content update generation => exact absurd hmem (h content update generation)
    · rfl

theorem Adapter.settled_new (session : Session) (createdAt : Int) :
    (Adapter.new session createdAt).settled = true := rfl

theorem Adapter.pending_tail {link : Link} (h : link ∈ s.messageQueue.tail) : link ∈ s.pending := by
  unfold pending
  split
  · exact List.mem_of_mem_tail h
  · exact h

theorem Adapter.pending_append {link link' : Link} (queue : s'.messageQueue = s.messageQueue ++ [link'])
    (progress : s'.progress = s.progress) (h : link ∈ s'.pending) : link ∈ s.pending ∨ link = link' := by
  rw [Adapter.pending, queue, progress] at h
  unfold Adapter.pending
  split at h
  · next hwaiting =>
    rw [if_pos hwaiting]
    simpa using h
  · next hbusy =>
    rw [if_neg hbusy]
    cases hlinks : s.messageQueue with
    | nil =>
      rw [hlinks] at h
      simp at h
    | cons first rest =>
      rw [hlinks] at h
      simpa using h

theorem Adapter.not_stage {content : Content} {update : LspDocumentUpdate} {generation : Option Nat}
    {rest : List Link} (hs : s.settled = true)
    (queue : s.messageQueue = .message content (some update) generation :: rest)
    (before : s.progress = .waiting) (unviolated : s.violated = false) : False := by
  rcases (Adapter.settled_iff.1 hs).2 with hviolated | hnone
  · rw [unviolated] at hviolated
    cases hviolated
  · refine hnone content update generation ?_
    rw [Adapter.pending, if_pos before, queue]
    exact List.mem_cons_self

/-- A settled chain stays so as long as no update is accepted, or if a violation was reported. -/
theorem Effect.settled (h : Effect session s s' events) (hs : s.settled = true)
    (haccepted : s.violated = false → ∀ content update, .accepted content (some update) ∉ events) :
    s'.settled = true := by
  obtain ⟨hprogress, hpending⟩ := Adapter.settled_iff.1 hs
  -- the links that are pending afterwards were pending before, and a violation stays
  have hkeep : s'.progress ≠ .staging → (s.violated = true → s'.violated = true) →
      (∀ content update generation, Link.message content (some update) generation ∈ s'.pending →
        Link.message content (some update) generation ∈ s.pending) → s'.settled = true := by
    intro hstaging hviolated hsub
    refine Adapter.settled_iff.2 ⟨hstaging, hpending.imp hviolated fun hnone => ?_⟩
    exact fun content update generation hmem => hnone _ _ _ (hsub _ _ _ hmem)
  have hnext : s'.progress = .waiting → s'.messageQueue = s.messageQueue.tail →
      ∀ content update generation, Link.message content (some update) generation ∈ s'.pending →
        Link.message content (some update) generation ∈ s.pending := by
    intro hwaiting hqueue content update generation hmem
    rw [Adapter.pending, if_pos hwaiting, hqueue] at hmem
    exact Adapter.pending_tail hmem
  cases h with
  | quiet queue progress alive documents reported =>
    refine hkeep (progress ▸ hprogress) (fun h => reported.violated (.inl h)) fun _ _ _ hmem => ?_
    rwa [Adapter.pending, queue, progress] at hmem
  | @accept arrival guard update generation valid taken documents queue progress disk alive same =>
    cases hviolated : s.violated with
    | true => exact Adapter.settled_iff.2 ⟨progress ▸ hprogress, .inl (same.trans hviolated)⟩
    | false =>
      refine hkeep (progress ▸ hprogress) (fun h => same ▸ h) fun content update' _ hmem => ?_
      rcases Adapter.pending_append queue progress hmem with hmem | heq
      · exact hmem
      · cases heq
        exact absurd List.mem_cons_self (haccepted hviolated _ update')
  | enqueue queue progress disk alive guard same =>
    refine hkeep (progress ▸ hprogress) (fun h => same ▸ h) fun _ _ _ hmem => ?_
    exact (Adapter.pending_append queue progress hmem).resolve_right nofun
  | stage queue queue' before after disk alive guard same unviolated =>
    exact (Adapter.not_stage hs queue before unviolated).elim
  | staged queue before => exact absurd before hprogress
  | write queue queue' before after disk alive guard same =>
    refine hkeep (by rw [after]; decide) (fun h => same ▸ h) fun _ _ _ hmem => ?_
    rw [Adapter.pending, if_neg (by rw [after]; decide), queue'] at hmem
    exact Adapter.pending_tail hmem
  | pass live queue ready queue' progress disk guard reported =>
    exact hkeep (by rw [progress]; decide) (fun h => reported.violated (.inl h))
      (hnext progress (by rw [queue', queue, List.tail_cons]))
  | drop queue progress dead guard reported =>
    exact hkeep (by rw [progress]; decide) (fun h => reported.violated (.inl h)) (hnext progress queue)
  | rebuilt queue before queue' progress disk alive units guard reported =>
    exact hkeep (by rw [progress]; decide) (fun h => reported.violated (.inl h))
      (hnext progress (by rw [queue', queue, List.tail_cons]))

theorem Effect.progress_of_settled (h : Effect session s s' events) (hs : s.settled = true) :
    s.progress ≠ .staging ∧ s'.progress ≠ .staging := by
  obtain ⟨hprogress, hpending⟩ := Adapter.settled_iff.1 hs
  refine ⟨hprogress, ?_⟩
  cases h with
  | quiet _ progress => exact progress ▸ hprogress
  | accept _ _ _ _ progress => exact progress ▸ hprogress
  | enqueue _ progress => exact progress ▸ hprogress
  | stage queue queue' before after disk alive guard same unviolated =>
    exact (Adapter.not_stage hs queue before unviolated).elim
  | staged queue before => exact absurd before hprogress
  | write _ _ _ after =>
    rw [after]
    decide
  | pass _ _ _ _ progress | drop _ progress | rebuilt _ _ _ progress =>
    rw [progress]
    decide

theorem Reports.not_accepted (h : Reports s s' events) (content : Content)
    (update : Option LspDocumentUpdate) : .accepted content update ∉ events := by
  cases h with
  | nothing => exact List.not_mem_nil
  | violation => simp

theorem reportViolation_not_accepted (s : Adapter) (violation : Violation) (content : Content)
    (update : Option LspDocumentUpdate) :
    .accepted content update ∉ (s.reportViolation violation).2 :=
  (reportViolation_eq s violation).2.2.2.2.not_accepted content update

theorem passOn_not_accepted (s : Adapter) (content content' : Content) (generation thrown : Option Nat)
    (update : Option LspDocumentUpdate) :
    .accepted content update ∉ (s.passOn content' generation thrown).2 := by
  unfold Adapter.passOn
  split
  · exact List.not_mem_nil
  · split
    · simpa using reportViolation_not_accepted s.next _ content update
    · split <;> simp

theorem rebuild_not_accepted (s : Adapter) (generation : Nat) (thrown : Option Nat)
    (content : Content) (update : Option LspDocumentUpdate) :
    .accepted content update ∉ (s.rebuild session generation thrown).2 := by
  unfold Adapter.rebuild
  split
  · exact List.not_mem_nil
  · dsimp only
    split
    · split
      · intro hmem
        rcases List.mem_append.1 hmem with hmem | hmem
        · obtain ⟨document, -, heq⟩ := List.mem_map.1 hmem
          cases heq
        · exact reportViolation_not_accepted _ _ _ _ hmem
      · simp
    · simp

theorem react_not_accepted {a : Action} {r : Adapter × List Event}
    (h : s.react session a = some r) (ha : ∀ arrival isBinary, a ≠ .message arrival isBinary)
    (content : Content) (update : Option LspDocumentUpdate) : .accepted content update ∉ r.2 := by
  cases a with
  | message arrival isBinary => exact absurd rfl (ha arrival isBinary)
  | start thrown =>
    simp only [Adapter.react, Adapter.start] at h
    repeat' split at h
    all_goals cases h
    · exact List.not_mem_nil
    · exact passOn_not_accepted _ _ _ _ _ _
    · exact reportViolation_not_accepted _ _ _ _
    · exact List.not_mem_nil
    · exact rebuild_not_accepted _ _ _ _ _
  | settle succeeds =>
    simp only [Adapter.react, Adapter.settle] at h
    split at h
    · split at h <;> cases h
      · exact List.not_mem_nil
      · exact reportViolation_not_accepted _ _ _ _
    · split at h
      · obtain ⟨disk, -, rfl⟩ := Option.map_eq_some_iff.1 h
        exact List.not_mem_nil
      · cases h
        exact reportViolation_not_accepted _ _ _ _
    · cases h
  | resume thrown =>
    simp only [Adapter.react, Adapter.resume] at h
    split at h <;> cases h
    exact passOn_not_accepted _ _ _ _ _ _
  | timer =>
    simp only [Adapter.react] at h
    split at h <;> cases h
    exact List.not_mem_nil
  | send content' bufferedAmount =>
    simp only [Adapter.react, Adapter.send] at h
    repeat' split at h
    all_goals cases h
    · exact List.not_mem_nil
    · exact reportViolation_not_accepted _ _ _ _
    · exact List.not_mem_nil
  | closing | removeWorkspace =>
    simp only [Adapter.react] at h
    split at h <;> cases h
    exact List.not_mem_nil
  | close | dispose =>
    cases h
    exact List.not_mem_nil

theorem onMessage_not_accepted {arrival : Arrival} {isBinary : Bool}
    (h : s.takesUpdate session (.message arrival isBinary) = false) (hviolated : s.violated = false)
    (content : Content) (update : LspDocumentUpdate) :
    .accepted content (some update) ∉ (s.onMessage session arrival isBinary).2 := by
  simp only [Adapter.takesUpdate, hviolated, Bool.not_false, Bool.true_and, Bool.and_eq_false_iff,
    Bool.not_eq_false', Option.isSome_eq_false_iff, Option.isNone_iff_eq_none] at h
  unfold Adapter.onMessage
  split
  · exact reportViolation_not_accepted _ _ _ _
  · next htext =>
    have hnone := h.resolve_left htext
    unfold Adapter.brings at hnone
    split
    · exact reportViolation_not_accepted _ _ _ _
    · next guard heq =>
      rw [heq] at hnone
      have hnone : guard.pendingDocumentUpdate = none := hnone
      simp [LspJsonRpcGuard.takeDocumentUpdate, hnone, Adapter.isHeaderUpdate]

theorem Adapter.settled_step {a : Action} (h : s.step session a = some s')
    (ha : s.takesUpdate session a = false) (hs : s.settled = true) : s'.settled = true := by
  obtain ⟨r, hreact, rfl⟩ := Option.map_eq_some_iff.1 h
  refine (react_effect hreact).settled hs fun hviolated content update => ?_
  cases a with
  | message arrival isBinary =>
    cases hreact
    exact onMessage_not_accepted ha hviolated content update
  | start | settle | resume | timer | send | closing | close | dispose | removeWorkspace =>
    exact react_not_accepted hreact nofun content (some update)

end Settled

/-! ### The adapters of sessions whose workspace is being removed -/

namespace Service

variable {o : SessionManagerOptions} {layout : Layout} {now : Int} {s s' : Service}
  {adapters : OrderedMap JsString Attached} {sessionId id : JsString}

def Settled (adapters : OrderedMap JsString Attached) (sessionId : JsString) : Prop :=
  ∀ attached, adapters.get sessionId = some attached → attached.adapter.settled = true

theorem Settled.set (h : Settled adapters sessionId) {attached : Attached}
    (hattached : sessionId = id → attached.adapter.settled = true) :
    Settled (adapters.set id attached) sessionId := by
  intro attached' hget
  rw [OrderedMap.get_set] at hget
  split at hget
  · next heq =>
    cases hget
    exact hattached heq
  · exact h attached' hget

theorem Settled.actOn (h : Settled adapters sessionId) (id : JsString) {action : Action}
    (haction : ∀ session adapter, Adapter.takesUpdate session adapter action = false) :
    Settled (Service.actOn adapters id action) sessionId := by
  unfold Service.actOn
  split
  · exact h
  · next session adapter hget =>
    split
    · exact h
    · next adapter' hstep =>
      refine h.set fun heq => ?_
      exact Adapter.settled_step hstep (haction _ _) (h _ (heq ▸ hget))

theorem Settled.disposeClosed (h : Settled adapters sessionId) (events : List ManagerEvent) :
    Settled (Service.disposeClosed events adapters) sessionId := by
  unfold Service.disposeClosed
  induction events generalizing adapters with
  | nil => exact h
  | cons event events ih =>
    rw [List.foldl_cons]
    apply ih
    split
    · exact h.actOn _ fun _ _ => rfl
    · exact h

theorem Settled.adaptersAfter (h : Settled s.adapters sessionId) (action : ManagerAction) :
    Settled (s.adaptersAfter layout action) sessionId := by
  unfold Service.adaptersAfter
  split
  · split
    · exact h
    · split
      · exact h.set fun _ => Adapter.settled_new _ _
      · exact h
  · exact h.actOn _ fun _ _ => rfl
  · exact h

theorem Settled.runManager {action : ManagerAction} (h : Settled s.adapters sessionId)
    (hs : s.runManager o layout action = some s') : Settled s'.adapters sessionId := by
  obtain ⟨r, -, rfl⟩ := Option.map_eq_some_iff.1 hs
  exact (h.adaptersAfter action).disposeClosed _

theorem runAdapter_cases {action : Action} (hs : s.runAdapter o layout id action = some s') :
    ∃ session adapter adapter', s.adapters.get id = some ⟨session, adapter⟩ ∧
      adapter.step session action = some adapter' ∧
      (s' = { s with adapters := s.adapters.set id ⟨session, adapter'⟩ } ∨
        ∃ closeCode reason, runManager o layout
          { s with adapters := s.adapters.set id ⟨session, adapter'⟩ }
          (.closeSession id closeCode reason) = some s') := by
  unfold Service.runAdapter at hs
  split at hs
  · cases hs
  · next session adapter hget =>
    split at hs
    · cases hs
    · split at hs
      · cases hs
      · next adapter' events hreact =>
        have hstep : adapter.step session action = some adapter' := by
          rw [Adapter.step, hreact]
          rfl
        refine ⟨session, adapter, adapter', hget, hstep, ?_⟩
        dsimp only at hs
        split at hs
        · exact .inl (Option.some.inj hs).symm
        · exact .inr ⟨_, _, hs⟩

theorem Settled.runAdapter {action : Action} (h : Settled s.adapters sessionId)
    (hs : s.runAdapter o layout id action = some s')
    (haction : id = sessionId → ∀ session adapter, s.adapters.get id = some ⟨session, adapter⟩ →
      adapter.takesUpdate session action = false) : Settled s'.adapters sessionId := by
  obtain ⟨session, adapter, adapter', hget, hstep, hs⟩ := runAdapter_cases hs
  have hset : Settled (s.adapters.set id ⟨session, adapter'⟩) sessionId := by
    refine h.set fun heq => ?_
    exact Adapter.settled_step hstep (haction heq.symm _ _ hget) (h _ (heq ▸ hget))
  rcases hs with rfl | ⟨closeCode, reason, hs⟩
  · exact hset
  · exact Settled.runManager hset hs

end Service

end SmartC.Lsp
