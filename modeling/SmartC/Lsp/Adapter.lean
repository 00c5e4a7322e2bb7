import SmartC.Lsp.Workspace

/-!
# The WebSocket adapter

`JsonRpcWebSocketAdapter` validates a message when it arrives and appends to a
promise chain what is still to be done: the document update is written, then
the message is passed on to clangd. A change of a header sets a timer that
appends a forced rebuild to the same chain. Between any two links, and while a
link awaits a file, messages arrive, the timer fires and the socket closes.
-/

namespace SmartC.Lsp

inductive ReadyState
  | opened
  | closing
  | closed
  deriving DecidableEq, Repr

inductive Link
  | message (content : Content) (update : Option LspDocumentUpdate) (rebuildGeneration : Option Nat)
  | rebuild (generation : Nat)

/-- How far the first link has come: it has not started, it awaits `writeFile`, it awaits
`rename`, or it is about to go on after both. -/
inductive Progress
  | waiting
  | staging
  | renaming
  | written
  deriving DecidableEq, Repr

/-- What can be seen of the adapter: a message that the guard accepted with its update, a
message passed on to clangd with the files at that moment, a forced rebuild passed on, and
the report of a violation. -/
inductive Event
  | accepted (content : Content) (update : Option LspDocumentUpdate)
  | passed (content : Content) (disk : Disk)
  | forced (document : LspOpenDocumentVersion)
  | violated (violation : Violation)

structure Adapter where
  guard : LspJsonRpcGuard
  readyState : ReadyState
  disk : Disk
  messageQueue : List Link
  progress : Progress
  /-- The generation that the pending timer was set for. -/
  headerRebuildTimer : Option Nat
  headerRebuildGeneration : Nat
  violated : Bool

inductive Action
  /-- The socket receives a frame. -/
  | message (arrival : Arrival) (isBinary : Bool)
  /-- The first link starts. Of the calls of the callback in it, `thrown` names one that throws. -/
  | start (thrown : Option Nat)
  /-- `writeFile` or `rename` settles. -/
  | settle (succeeds : Bool)
  /-- The first link goes on after its update was written. -/
  | resume (thrown : Option Nat)
  /-- The rebuild timer fires. -/
  | timer
  /-- clangd sends a message. -/
  | send (content : Content) (bufferedAmount : Nat)
  /-- The socket leaves the open state. -/
  | closing
  /-- The socket reports that it is closed. -/
  | close
  | dispose
  /-- The cleanup of the session, which has closed the socket, removes the workspace. -/
  | removeWorkspace

def endsWith (name : JsString) (ending : String) : Bool := (js ending).isSuffixOf name

def Session.headerUris (session : Session) : List JsString :=
  (session.files.filter fun file => endsWith file.name ".h").map fun file =>
    session.createClangdDocumentUri file.name

def Session.translationUnitUris (session : Session) : List JsString :=
  (session.files.filter fun file => endsWith file.name ".c").map fun file =>
    session.createClangdDocumentUri file.name

def synchronizationFailed : Violation := ⟨1011, "Failed to synchronize LSP document"⟩

def createForceRebuild (document : LspOpenDocumentVersion) : Json := .object [
  (js "jsonrpc", .string (js "2.0")),
  (js "method", .string (js "textDocument/didChange")),
  (js "params", .object [
    (js "textDocument", .object [
      (js "uri", .string document.uri),
      (js "version", .number (.finite document.version))]),
    (js "contentChanges", .array []),
    (js "forceRebuild", .bool true),
    (js "wantDiagnostics", .bool true)])]

namespace Adapter

def new (session : Session) (createdAt : Int) : Adapter where
  guard := .new createdAt
  readyState := .opened
  disk := createFiles session.files
  messageQueue := []
  progress := .waiting
  headerRebuildTimer := none
  headerRebuildGeneration := 0
  violated := false

def alive (s : Adapter) : Bool := !s.violated && s.readyState = .opened

def cancelHeaderRebuild (s : Adapter) : Adapter :=
  { s with headerRebuildGeneration := s.headerRebuildGeneration + 1, headerRebuildTimer := none }

def reportViolation (s : Adapter) (violation : Violation) : Adapter × List Event :=
  if s.violated then (s, [])
  else ({ s.cancelHeaderRebuild with violated := true }, [.violated violation])

def next (s : Adapter) : Adapter :=
  { s with messageQueue := s.messageQueue.tail, progress := .waiting }

def scheduleHeaderRebuild (s : Adapter) (generation : Nat) : Adapter :=
  if generation ≠ s.headerRebuildGeneration then s
  else { s with headerRebuildTimer := some generation }

/-- Whether a change of this document rebuilds the files that include it. -/
def isHeaderUpdate (session : Session) : Option LspDocumentUpdate → Bool
  | some update => update.notifyDependents && session.headerUris.contains update.uri
  | none => false

def onMessage (session : Session) (s : Adapter) (a : Arrival) (isBinary : Bool) :
    Adapter × List Event :=
  if isBinary then s.reportViolation ⟨1003, "Text frames are required"⟩
  else match s.guard.validateClientMessage session.guardOptions a.now a.content with
    | (.error violation, guard) => { s with guard := guard }.reportViolation violation
    | (.ok (), guard) =>
      let (update, guard) := guard.takeDocumentUpdate
      let s := { s with guard := guard }
      -- `beginHeaderRebuild` numbers a new generation and drops the pending timer
      if isHeaderUpdate session update then
        let s := s.cancelHeaderRebuild
        ({ s with messageQueue :=
            s.messageQueue ++ [.message a.content update (some s.headerRebuildGeneration)] },
          [.accepted a.content update])
      else
        ({ s with messageQueue := s.messageQueue ++ [.message a.content update none] },
          [.accepted a.content update])

/-- The end of a message link, with its document update on disk. -/
def passOn (s : Adapter) (content : Content) (rebuildGeneration : Option Nat)
    (thrown : Option Nat) : Adapter × List Event :=
  if !s.alive then (s.next, [])
  else match thrown with
    | some _ =>
      let (s', events) := s.next.reportViolation synchronizationFailed
      (s', .passed content s.disk :: events)
    | none =>
      match rebuildGeneration with
      | none => (s.next, [.passed content s.disk])
      | some generation => (s.next.scheduleHeaderRebuild generation, [.passed content s.disk])

/-- A rebuild link. -/
def rebuild (session : Session) (s : Adapter) (generation : Nat) (thrown : Option Nat) :
    Adapter × List Event :=
  if !s.alive || generation ≠ s.headerRebuildGeneration then (s.next, [])
  else
    let translationUnits := s.guard.openDocumentVersions.filter fun document =>
      session.translationUnitUris.contains document.uri
    match thrown with
    | some k =>
      if k < translationUnits.length then
        let (s', events) := s.next.reportViolation synchronizationFailed
        (s', (translationUnits.take (k + 1)).map .forced ++ events)
      else (s.next, translationUnits.map .forced)
    | none => (s.next, translationUnits.map .forced)

/-- The first link up to its first `await`. -/
def start (session : Session) (s : Adapter) (thrown : Option Nat) :
    Option (Adapter × List Event) :=
  match s.progress, s.messageQueue with
  | .waiting, .message content update rebuildGeneration :: _ =>
    if s.violated then some (s.next, [])
    else match update with
      | none => some (s.passOn content rebuildGeneration thrown)
      | some update =>
        match session.documentPath update.uri with
        | none => some (s.next.reportViolation synchronizationFailed)
        | some _ => some ({ s with progress := .staging }, [])
  | .waiting, .rebuild generation :: _ => some (s.rebuild session generation thrown)
  | _, _ => none

/-- The file operation that the first link awaits settles. -/
def settle (session : Session) (s : Adapter) (succeeds : Bool) : Option (Adapter × List Event) :=
  match s.progress, s.messageQueue with
  | .staging, _ :: _ =>
    if succeeds then some ({ s with progress := .renaming }, [])
    else some (s.next.reportViolation synchronizationFailed)
  | .renaming, .message _ (some update) _ :: _ =>
    if succeeds then
      (session.writeUpdate s.disk update).map fun disk =>
        ({ s with disk := disk, progress := .written }, [])
    else some (s.next.reportViolation synchronizationFailed)
  | _, _ => none

def resume (s : Adapter) (thrown : Option Nat) : Option (Adapter × List Event) :=
  match s.progress, s.messageQueue with
  | .written, .message content _ rebuildGeneration :: _ =>
    some (s.passOn content rebuildGeneration thrown)
  | _, _ => none

def send (session : Session) (s : Adapter) (content : Content) (bufferedAmount : Nat) :
    Adapter × List Event :=
  if s.readyState ≠ .opened then (s, [])
  else match s.guard.validateServerMessage session.guardOptions content bufferedAmount with
    | .error violation => s.reportViolation violation
    | .ok guard => ({ s with guard := guard }, [])

/-- The adapter after an action, and what can be seen of it; `none` if the action is not
possible. -/
def react (session : Session) (s : Adapter) : Action → Option (Adapter × List Event)
  | .message arrival isBinary => some (s.onMessage session arrival isBinary)
  | .start thrown => s.start session thrown
  | .settle succeeds => s.settle session succeeds
  | .resume thrown => s.resume thrown
  | .timer =>
    match s.headerRebuildTimer with
    | none => none
    | some generation => some ({ s with
        headerRebuildTimer := none
        messageQueue := s.messageQueue ++ [.rebuild generation] }, [])
  | .send content bufferedAmount => some (s.send session content bufferedAmount)
  | .closing =>
    if s.readyState = .opened then some ({ s with readyState := .closing }, []) else none
  | .close => some ({ s.cancelHeaderRebuild with readyState := .closed }, [])
  | .dispose =>
    let s := s.cancelHeaderRebuild
    some (if s.readyState = .opened then { s with readyState := .closing } else s, [])
  | .removeWorkspace => if s.readyState = .opened then none else some ({ s with disk := .empty }, [])

def step (session : Session) (s : Adapter) (a : Action) : Option Adapter :=
  (s.react session a).map Prod.fst

def events (session : Session) (s : Adapter) (a : Action) : List Event :=
  ((s.react session a).map Prod.snd).getD []

end Adapter

def adapterSystem (session : Session) (createdAt : Int) : Transition.System Adapter Action :=
  .ofStep (.new session createdAt) (Adapter.step session)

/-! ### What an action does -/

/-- At most one violation is reported, and then the adapter was not violated before. -/
inductive Reports (s s' : Adapter) : List Event → Prop
  | nothing (same : s'.violated = s.violated) : Reports s s' []
  | violation (v : Violation) (before : s.violated = false) (after : s'.violated = true) :
      Reports s s' [.violated v]

/-- What an action does to the chain, the files and the guard. -/
inductive Effect (session : Session) (s s' : Adapter) : List Event → Prop
  /-- Nothing moves in the chain. -/
  | quiet {reports} (queue : s'.messageQueue = s.messageQueue) (progress : s'.progress = s.progress)
      (alive : s'.alive = true → s.alive = true ∧ s'.disk = s.disk)
      (documents : s'.guard.documents = s.guard.documents) (reported : Reports s s' reports) :
      Effect session s s' reports
  | accept {a : Arrival} {guard update generation}
      (valid : s.guard.validateClientMessage session.guardOptions a.now a.content = (.ok (), guard))
      (taken : guard.pendingDocumentUpdate = update)
      (documents : s'.guard.documents = guard.documents)
      (queue : s'.messageQueue = s.messageQueue ++ [.message a.content update generation])
      (progress : s'.progress = s.progress) (disk : s'.disk = s.disk)
      (alive : s'.alive = s.alive) (same : s'.violated = s.violated) :
      Effect session s s' [.accepted a.content update]
  | enqueue {generation} (queue : s'.messageQueue = s.messageQueue ++ [.rebuild generation])
      (progress : s'.progress = s.progress) (disk : s'.disk = s.disk) (alive : s'.alive = s.alive)
      (guard : s'.guard = s.guard) (same : s'.violated = s.violated) : Effect session s s' []
  | stage {content update generation rest}
      (queue : s.messageQueue = .message content (some update) generation :: rest)
      (queue' : s'.messageQueue = s.messageQueue) (before : s.progress = .waiting)
      (after : s'.progress = .staging) (disk : s'.disk = s.disk) (alive : s'.alive = s.alive)
      (guard : s'.guard = s.guard) (same : s'.violated = s.violated)
      (unviolated : s.violated = false) : Effect session s s' []
  | staged (queue : s'.messageQueue = s.messageQueue) (before : s.progress = .staging)
      (after : s'.progress = .renaming) (disk : s'.disk = s.disk) (alive : s'.alive = s.alive)
      (guard : s'.guard = s.guard) (same : s'.violated = s.violated) : Effect session s s' []
  | write {content update generation rest}
      (queue : s.messageQueue = .message content (some update) generation :: rest)
      (queue' : s'.messageQueue = s.messageQueue) (before : s.progress = .renaming)
      (after : s'.progress = .written) (disk : session.writeUpdate s.disk update = some s'.disk)
      (alive : s'.alive = s.alive) (guard : s'.guard = s.guard) (same : s'.violated = s.violated) :
      Effect session s s' []
  | pass {content update generation rest reports} (live : s.alive = true)
      (queue : s.messageQueue = .message content update generation :: rest)
      (ready : s.progress = .written ∨ s.progress = .waiting ∧ update = none)
      (queue' : s'.messageQueue = rest) (progress : s'.progress = .waiting)
      (disk : s'.disk = s.disk) (guard : s'.guard = s.guard) (reported : Reports s s' reports) :
      Effect session s s' (.passed content s.disk :: reports)
  /-- The first link gives up. -/
  | drop {reports} (queue : s'.messageQueue = s.messageQueue.tail) (progress : s'.progress = .waiting)
      (dead : s'.alive = false) (guard : s'.guard = s.guard) (reported : Reports s s' reports) :
      Effect session s s' reports
  | rebuilt {generation rest documents reports} (queue : s.messageQueue = .rebuild generation :: rest)
      (before : s.progress = .waiting) (queue' : s'.messageQueue = rest)
      (progress : s'.progress = .waiting) (disk : s'.disk = s.disk)
      (alive : s'.alive = true → s.alive = true)
      (units : documents ≠ [] → s.alive = true ∧ generation = s.headerRebuildGeneration ∧
        ∀ document ∈ documents, document ∈ s.guard.openDocumentVersions ∧
          document.uri ∈ session.translationUnitUris)
      (guard : s'.guard = s.guard) (reported : Reports s s' reports) :
      Effect session s s' (documents.map .forced ++ reports)

variable {session : Session} {s s' : Adapter} {events : List Event}

theorem Reports.of_same {s₀ : Adapter} (h : Reports s₀ s' events)
    (same : s₀.violated = s.violated) : Reports s s' events := by
  cases h with
  | nothing hsame => exact .nothing (hsame.trans same)
  | violation v before after => exact .violation v (same ▸ before) after

theorem Reports.violated (h : Reports s s' events) (hs : s.violated = true ∨ events ≠ []) :
    s'.violated = true := by
  cases h with
  | nothing same =>
    rw [same]
    exact hs.resolve_right fun h => h rfl
  | violation _ _ after => exact after

theorem reportViolation_eq (s : Adapter) (violation : Violation) :
    (s.reportViolation violation).1.messageQueue = s.messageQueue ∧
      (s.reportViolation violation).1.progress = s.progress ∧
      (s.reportViolation violation).1.guard = s.guard ∧
      (s.reportViolation violation).1.alive = false ∧
      Reports s (s.reportViolation violation).1 (s.reportViolation violation).2 := by
  unfold Adapter.reportViolation
  split
  · next hviolated => exact ⟨rfl, rfl, rfl, by simp [Adapter.alive, hviolated], .nothing rfl⟩
  · next hviolated =>
    exact ⟨rfl, rfl, rfl, by simp [Adapter.alive], .violation _ (by simpa using hviolated) rfl⟩

theorem Effect.of_report (s : Adapter) {s₀ : Adapter} (violation : Violation)
    (queue : s₀.messageQueue = s.messageQueue) (progress : s₀.progress = s.progress)
    (documents : s₀.guard.documents = s.guard.documents) (same : s₀.violated = s.violated) :
    Effect session s (s₀.reportViolation violation).1 (s₀.reportViolation violation).2 := by
  obtain ⟨hqueue, hprogress, hguard, hdead, hreports⟩ := reportViolation_eq s₀ violation
  refine .quiet (hqueue.trans queue) (hprogress.trans progress)
    (fun halive => absurd halive (by simp [hdead])) (by rw [hguard, documents])
    (hreports.of_same same)

theorem Effect.of_failure (s : Adapter) (violation : Violation) :
    Effect session s (s.next.reportViolation violation).1 (s.next.reportViolation violation).2 := by
  obtain ⟨hqueue, hprogress, hguard, hdead, hreports⟩ := reportViolation_eq s.next violation
  exact .drop hqueue hprogress hdead hguard (hreports.of_same rfl)

theorem Effect.of_some {r : Adapter × List Event} (h : some r = some (s', events))
    (he : Effect session s r.1 r.2) : Effect session s s' events := by
  obtain rfl : r = (s', events) := Option.some.inj h
  exact he

theorem onMessage_effect (s : Adapter) (a : Arrival) (isBinary : Bool) :
    Effect session s (s.onMessage session a isBinary).1 (s.onMessage session a isBinary).2 := by
  unfold Adapter.onMessage
  split
  · exact .of_report s _ rfl rfl rfl rfl
  split
  · next violation guard hvalidate =>
    refine .of_report s _ rfl rfl ?_ rfl
    obtain ⟨startedAt, messages, bytes, ⟨v, hv⟩ | ⟨message, g', hv, -⟩⟩ :=
      validateClientMessage_cases session.guardOptions a.now a.content s.guard
    · rw [hvalidate] at hv
      cases hv
      rfl
    · rw [hvalidate] at hv
      cases hv
  · next guard hvalidate =>
    dsimp only [LspJsonRpcGuard.takeDocumentUpdate]
    split
    · exact .accept hvalidate rfl rfl rfl rfl rfl rfl rfl
    · exact .accept hvalidate rfl rfl rfl rfl rfl rfl rfl

theorem passOn_effect {content : Content} {update : Option LspDocumentUpdate}
    {generation : Option Nat} {rest : List Link} (thrown : Option Nat)
    (queue : s.messageQueue = .message content update generation :: rest)
    (ready : s.progress = .written ∨ s.progress = .waiting ∧ update = none) :
    Effect session s (s.passOn content generation thrown).1
      (s.passOn content generation thrown).2 := by
  have hqueue : s.next.messageQueue = rest := by rw [Adapter.next, queue, List.tail_cons]
  unfold Adapter.passOn
  split
  · next hdead =>
    have hdead : s.alive = false := by simpa using hdead
    exact .drop rfl rfl hdead rfl (.nothing rfl)
  next halive =>
  have halive : s.alive = true := by simpa using halive
  split
  · obtain ⟨hqueue', hprogress, hguard, -, hreports⟩ := reportViolation_eq s.next synchronizationFailed
    have hdisk : (s.next.reportViolation synchronizationFailed).1.disk = s.disk := by
      unfold Adapter.reportViolation
      split <;> rfl
    exact .pass halive queue ready (hqueue'.trans hqueue) hprogress hdisk hguard
      (hreports.of_same rfl)
  · split
    · exact .pass halive queue ready hqueue rfl rfl rfl (.nothing rfl)
    · next generation =>
      have hschedule : s.next.scheduleHeaderRebuild generation = { s.next with
          headerRebuildTimer := (s.next.scheduleHeaderRebuild generation).headerRebuildTimer } := by
        unfold Adapter.scheduleHeaderRebuild
        split <;> rfl
      rw [hschedule]
      exact .pass halive queue ready hqueue rfl rfl rfl (.nothing rfl)

theorem rebuild_effect {generation : Nat} {rest : List Link} (thrown : Option Nat)
    (queue : s.messageQueue = .rebuild generation :: rest) (before : s.progress = .waiting) :
    Effect session s (s.rebuild session generation thrown).1
      (s.rebuild session generation thrown).2 := by
  have hqueue : s.next.messageQueue = rest := by rw [Adapter.next, queue, List.tail_cons]
  unfold Adapter.rebuild
  split
  · exact Effect.rebuilt queue before hqueue rfl rfl id (fun h => absurd rfl h) rfl (.nothing rfl)
  next hcurrent =>
  obtain ⟨halive, hgeneration⟩ : s.alive = true ∧ generation = s.headerRebuildGeneration := by
    simpa using hcurrent
  dsimp only
  generalize hunits : s.guard.openDocumentVersions.filter (fun document =>
    session.translationUnitUris.contains document.uri) = units
  have hmem : ∀ document ∈ units, document ∈ s.guard.openDocumentVersions ∧
      document.uri ∈ session.translationUnitUris := by
    rw [← hunits]
    intro document hdocument
    obtain ⟨hopen, hunit⟩ := List.mem_filter.1 hdocument
    exact ⟨hopen, List.contains_iff_mem.1 hunit⟩
  have hall : Effect session s s.next (units.map .forced) := by
    rw [← List.append_nil (units.map Event.forced)]
    exact .rebuilt queue before hqueue rfl rfl id (fun _ => ⟨halive, hgeneration, hmem⟩) rfl
      (.nothing rfl)
  split
  · next k =>
    split
    · obtain ⟨hqueue', hprogress, hguard, hdead, hreports⟩ :=
        reportViolation_eq s.next synchronizationFailed
      have hdisk : (s.next.reportViolation synchronizationFailed).1.disk = s.disk := by
        unfold Adapter.reportViolation
        split <;> rfl
      exact .rebuilt queue before (hqueue'.trans hqueue) hprogress hdisk
        (fun h => absurd h (by simp [hdead]))
        (fun _ => ⟨halive, hgeneration, fun document hdocument =>
          hmem document (List.mem_of_mem_take hdocument)⟩)
        hguard (hreports.of_same rfl)
    · exact hall
  · exact hall

theorem start_effect {thrown : Option Nat} (h : s.start session thrown = some (s', events)) :
    Effect session s s' events := by
  unfold Adapter.start at h
  split at h
  · next content update generation rest hprogress hqueue =>
    split at h
    · next hviolated =>
      cases h
      exact .drop rfl rfl (by simp [Adapter.alive, Adapter.next, hviolated]) rfl (.nothing rfl)
    · next hunviolated =>
      split at h
      · exact .of_some h (passOn_effect thrown hqueue (.inr ⟨hprogress, rfl⟩))
      · split at h
        · exact .of_some h (.of_failure s _)
        · cases h
          exact .stage hqueue rfl hprogress rfl rfl rfl rfl rfl (Bool.eq_false_iff.2 hunviolated)
  · next generation rest hprogress hqueue =>
    exact .of_some h (rebuild_effect thrown hqueue hprogress)
  · cases h

theorem settle_effect {succeeds : Bool} (h : s.settle session succeeds = some (s', events)) :
    Effect session s s' events := by
  unfold Adapter.settle at h
  split at h
  · next hprogress hqueue =>
    split at h
    · cases h
      exact .staged rfl hprogress rfl rfl rfl rfl rfl
    · exact .of_some h (.of_failure s _)
  · next content update generation rest hprogress hqueue =>
    split at h
    · obtain ⟨disk, hdisk, heq⟩ := Option.map_eq_some_iff.1 h
      cases heq
      exact .write hqueue rfl hprogress rfl hdisk rfl rfl rfl
    · exact .of_some h (.of_failure s _)
  · cases h

theorem send_effect (s : Adapter) (content : Content) (bufferedAmount : Nat) :
    Effect session s (s.send session content bufferedAmount).1
      (s.send session content bufferedAmount).2 := by
  unfold Adapter.send
  split
  · exact .quiet rfl rfl (fun h => ⟨h, rfl⟩) rfl (.nothing rfl)
  split
  · exact .of_report s _ rfl rfl rfl rfl
  · next guard hvalidate =>
    refine .quiet rfl rfl (fun h => ⟨h, rfl⟩) ?_ (.nothing rfl)
    unfold LspJsonRpcGuard.validateServerMessage at hvalidate
    repeat' split at hvalidate
    all_goals cases hvalidate
    rfl

/-- Every action has one of the effects. -/
theorem react_effect {a : Action} (h : s.react session a = some (s', events)) :
    Effect session s s' events := by
  cases a with
  | message arrival isBinary =>
    exact .of_some h (onMessage_effect s arrival isBinary)
  | start thrown => exact start_effect h
  | settle succeeds => exact settle_effect h
  | resume thrown =>
    simp only [Adapter.react, Adapter.resume] at h
    split at h
    · next hprogress hqueue =>
      exact .of_some h (passOn_effect thrown hqueue (.inl hprogress))
    · cases h
  | timer =>
    simp only [Adapter.react] at h
    split at h
    · cases h
    · cases h
      exact .enqueue rfl rfl rfl rfl rfl rfl
  | send content bufferedAmount =>
    exact .of_some h (send_effect s content bufferedAmount)
  | closing =>
    simp only [Adapter.react] at h
    split at h
    · cases h
      exact .quiet rfl rfl (fun halive => absurd halive (by simp [Adapter.alive])) rfl (.nothing rfl)
    · cases h
  | close =>
    cases h
    exact .quiet rfl rfl (fun halive => absurd halive (by simp [Adapter.alive])) rfl (.nothing rfl)
  | dispose =>
    refine .of_some h ?_
    dsimp only
    split
    · exact .quiet rfl rfl (fun halive => absurd halive (by simp [Adapter.alive])) rfl (.nothing rfl)
    · exact .quiet rfl rfl (fun halive => ⟨halive, rfl⟩) rfl (.nothing rfl)
  | removeWorkspace =>
    simp only [Adapter.react] at h
    split at h
    · cases h
    · next hclosed =>
      cases h
      refine .quiet rfl rfl (fun halive => absurd halive ?_) rfl (.nothing rfl)
      simp [Adapter.alive, hclosed]

end SmartC.Lsp
