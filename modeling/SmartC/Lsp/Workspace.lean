import Mathlib.Algebra.Order.Group.Int
import SmartC.Lsp.Documents

/-!
# The files of a session

A session starts with the files of its request, written to a directory of its
own, and every accepted document update overwrites the file of its document.
The guard limits the documents that are open; the files of the other documents
stay on disk and count towards no limit.
-/

namespace SmartC.Lsp

def SOURCE_MAX_BYTES : Nat := 64 * 1024

def SOURCE_FILE_MAX_COUNT : Nat := 16

def SOURCE_FILE_NAME_MAX_LENGTH : Nat := 64

structure CSourceFile where
  name : JsString
  content : JsString
  deriving DecidableEq, Repr

def isNameStart (u : UInt16) : Bool :=
  (0x41 ≤ u && u ≤ 0x5A) || (0x61 ≤ u && u ≤ 0x7A) || (0x30 ≤ u && u ≤ 0x39)

def isNameUnit (u : UInt16) : Bool := isNameStart u || u = 0x5F || u = 0x2D

/-- `^[A-Za-z0-9][A-Za-z0-9_-]*$` -/
def isValidStem : JsString → Bool
  | [] => false
  | first :: rest => isNameStart first && rest.all isNameUnit

def isValidSourceFileName (name : JsString) : Bool :=
  name.length ≤ SOURCE_FILE_NAME_MAX_LENGTH
    && [js ".c", js ".h"].contains (name.drop (name.length - 2))
    && isValidStem (name.take (name.length - 2))

/-- `name.toLowerCase()` of a valid name. -/
def toLowerCase (name : JsString) : JsString :=
  name.map fun u => if 0x41 ≤ u ∧ u ≤ 0x5A then u + 0x20 else u

/-- What `createSession` fixes: the files of the request, and the workspace as clangd
names it. -/
structure Session where
  files : List CSourceFile
  workspaceUri : JsString
  workspacePath : JsString

/-- `pathToFileURL(join(workspacePath, fileName)).href`; no character of a file name is
escaped. -/
def Session.createClangdDocumentUri (session : Session) (fileName : JsString) : JsString :=
  session.workspaceUri ++ js "/" ++ fileName

def Session.documentUris (session : Session) : List JsString :=
  session.files.map fun file => session.createClangdDocumentUri file.name

/-- The options that `attachWebSocket` gives to the guard. -/
def Session.guardOptions (session : Session) : LspJsonRpcGuardOptions where
  documentUris := session.documentUris
  workspaceUri := session.workspaceUri
  workspacePath := session.workspacePath

abbrev Disk := OrderedMap JsString (List UInt8)

def createFiles (files : List CSourceFile) : Disk :=
  files.foldl (fun disk file => disk.set file.name (toUtf8 file.content)) .empty

def Session.documentPath (session : Session) (uri : JsString) : Option JsString :=
  (session.files.find? fun file => session.createClangdDocumentUri file.name = uri).map (·.name)

/-- `onDocumentUpdate`; `none` is the error that no path is available. -/
def Session.writeUpdate (session : Session) (disk : Disk) (update : LspDocumentUpdate) :
    Option Disk :=
  (session.documentPath update.uri).map fun path => disk.set path (toUtf8 update.text)

def Disk.size (disk : Disk) : Int := disk.total fun bytes => (bytes.length : Int)

structure Workspace where
  guard : LspJsonRpcGuard
  disk : Disk

def Workspace.new (session : Session) (createdAt : Int) : Workspace :=
  ⟨.new createdAt, createFiles session.files⟩

def Workspace.receive (session : Session) (s : Workspace) (a : Arrival) : Workspace :=
  let validation := s.guard.validateClientMessage session.guardOptions a.now a.content
  let (update, guard) := validation.2.takeDocumentUpdate
  match update with
  | none => ⟨guard, s.disk⟩
  | some update => ⟨guard, (session.writeUpdate s.disk update).getD s.disk⟩

variable {session : Session} {createdAt : Int} {s : Workspace}

/-! ### The start -/

theorem createClangdDocumentUri_injective (session : Session) :
    Function.Injective session.createClangdDocumentUri := by
  intro a b h
  exact List.append_cancel_left h

theorem documentPath_eq {uri : JsString} (h : uri ∈ session.documentUris) :
    ∃ name, session.documentPath uri = some name ∧ session.createClangdDocumentUri name = uri := by
  obtain ⟨file, hfile, rfl⟩ := List.mem_map.1 h
  cases hfind : session.files.find? fun f =>
      decide (session.createClangdDocumentUri f.name = session.createClangdDocumentUri file.name) with
  | none => exact absurd (List.find?_eq_none.1 hfind file hfile) (by simp)
  | some f =>
    refine ⟨f.name, by rw [Session.documentPath, hfind, Option.map_some], ?_⟩
    simpa using List.find?_some hfind

/-- The file of every open document holds its text, and every file is one of the session. -/
structure Synced (session : Session) (s : Workspace) : Prop where
  budget : WithinBudget session.guardOptions s.guard
  files : ∀ name bytes, s.disk.get name = some bytes →
    session.createClangdDocumentUri name ∈ session.documentUris
  written : ∀ name d, s.guard.documents.get (session.createClangdDocumentUri name) = some d →
    s.disk.get name = some (toUtf8 d.text)

theorem Admitted.writes_or {o : LspJsonRpcGuardOptions} {g g' : LspJsonRpcGuard} {message : Json}
    (h : Admitted o g message g') (hb : WithinBudget o g) (hp : g.pendingDocumentUpdate = none) :
    (g'.pendingDocumentUpdate = none ∧
      ∀ uri d, g'.documents.get uri = some d → g.documents.get uri = some d) ∨
    ∃ uri version text old notify, uri ∈ o.documentUris ∧
      g' = g.write uri version text old notify := by
  cases h with
  | response => exact .inl ⟨hp, fun _ _ hget => hget⟩
  | ungated => exact .inl ⟨hp, fun _ _ hget => hget⟩
  | initializeRequest => exact .inl ⟨hp, fun _ _ hget => hget⟩
  | initialized => exact .inl ⟨hp, fun _ _ hget => hget⟩
  | shutdown => exact .inl ⟨hp, fun _ _ hget => hget⟩
  | exit => exact .inl ⟨hp, fun _ _ hget => hget⟩
  | didOpen _ _ _ allowed => exact .inr ⟨_, _, _, _, _, allowed, rfl⟩
  | didChange _ _ _ opened =>
    exact .inr ⟨_, _, _, _, _, (hb.documents _ _ opened).allowed, rfl⟩
  | didClose _ _ _ opened =>
    refine .inl ⟨hp, fun uri' d hget => ?_⟩
    simp only [OrderedMap.get_delete] at hget
    split at hget
    · cases hget
    · exact hget
  | didSave => exact .inl ⟨hp, fun _ _ hget => hget⟩
  | didSaveText _ _ _ opened =>
    exact .inr ⟨_, _, _, _, _, (hb.documents _ _ opened).allowed, rfl⟩
  | other => exact .inl ⟨hp, fun _ _ hget => hget⟩

/-- What receiving a message does: nothing to the files, or one file is overwritten. -/
theorem Synced.receive_cases (h : Synced session s) (a : Arrival) :
    ((s.guard.validateClientMessage session.guardOptions a.now a.content).2.pendingDocumentUpdate =
        none ∧ (s.receive session a).disk = s.disk ∧ Synced session (s.receive session a)) ∨
    ∃ name text notify,
      session.createClangdDocumentUri name ∈ session.documentUris ∧
      session.documentPath (session.createClangdDocumentUri name) = some name ∧
      (s.guard.validateClientMessage session.guardOptions a.now a.content).2.pendingDocumentUpdate =
        some ⟨session.createClangdDocumentUri name, text, notify⟩ ∧
      (s.receive session a).disk = s.disk.set name (toUtf8 text) ∧
      (s.receive session a).guard =
        { (s.guard.validateClientMessage session.guardOptions a.now a.content).2 with
          pendingDocumentUpdate := none } ∧
      (s.receive session a).guard.documents.has (session.createClangdDocumentUri name) = true ∧
      Synced session (s.receive session a) := by
  obtain ⟨startedAt, messages, bytes, ⟨violation, hv⟩ | ⟨message, g', hv, -, hadmitted⟩⟩ :=
    validateClientMessage_cases session.guardOptions a.now a.content s.guard
  -- a violation: only the budget is charged
  · have hreceive : s.receive session a = ⟨s.guard.charged startedAt messages bytes, s.disk⟩ := by
      simp only [Workspace.receive, hv]
      rfl
    rw [hv, hreceive]
    exact .inl ⟨rfl, rfl, ⟨h.budget.documents, h.budget.total, h.budget.limit⟩, h.files, h.written⟩
  · have hbudget : WithinBudget session.guardOptions (s.guard.charged startedAt messages bytes) :=
      ⟨h.budget.documents, h.budget.total, h.budget.limit⟩
    have hbudget' := hadmitted.withinBudget hbudget
    rcases hadmitted.writes_or hbudget rfl with
      ⟨hpending, hkept⟩ | ⟨uri, version, text, old, notify, hallowed, rfl⟩
    · have hreceive : s.receive session a =
          ⟨{ g' with pendingDocumentUpdate := none }, s.disk⟩ := by
        simp only [Workspace.receive, hv, LspJsonRpcGuard.takeDocumentUpdate, hpending]
      rw [hv, hreceive]
      refine .inl ⟨hpending, rfl, ⟨hbudget'.documents, hbudget'.total, hbudget'.limit⟩, h.files, ?_⟩
      exact fun name d hget => h.written name d (hkept _ d hget)
    · obtain ⟨name, hpath, rfl⟩ := documentPath_eq hallowed
      have hreceive : s.receive session a =
          ⟨{ (s.guard.charged startedAt messages bytes).write (session.createClangdDocumentUri name)
              version text old notify with pendingDocumentUpdate := none },
            s.disk.set name (toUtf8 text)⟩ := by
        simp only [Workspace.receive, hv, LspJsonRpcGuard.takeDocumentUpdate,
          LspJsonRpcGuard.write, Session.writeUpdate, hpath, Option.map_some, Option.getD_some]
      rw [hv, hreceive]
      refine .inr ⟨name, text, notify, hallowed, hpath, rfl, rfl, rfl, ?_,
        ⟨hbudget'.documents, hbudget'.total, hbudget'.limit⟩, ?_, ?_⟩
      · simp [LspJsonRpcGuard.write, OrderedMap.has, OrderedMap.get_set]
      · intro name' bytes' hget
        simp only [OrderedMap.get_set] at hget
        split at hget
        · next heq => exact heq ▸ hallowed
        · exact h.files name' bytes' hget
      · intro name' d hget
        simp only [LspJsonRpcGuard.write, OrderedMap.get_set] at hget
        simp only [OrderedMap.get_set]
        -- no two names have the same URI, so the other documents keep their files
        by_cases hname : name' = name
        · subst hname
          rw [if_pos rfl] at hget ⊢
          cases hget
          rfl
        · rw [if_neg ((createClangdDocumentUri_injective session).ne hname)] at hget
          rw [if_neg hname]
          exact h.written name' d hget

def LspJsonRpcGuard.counted (g : LspJsonRpcGuard) (bytes : Nat) : LspJsonRpcGuard :=
  g.charged g.clientWindowStartedAt (g.clientMessagesInWindow + 1) (g.clientSessionBytes + bytes)

def Browser.emptySession : Session where
  files := [⟨js "main.c", []⟩, ⟨js "util.h", []⟩]
  workspaceUri := js "file:///workspace"
  workspacePath := js "/workspace"

def Browser.ready : Workspace where
  guard := { LspJsonRpcGuard.new 0 with
    clientMessagesInWindow := 2
    clientSessionBytes := 512
    initializeSeen := true
    initializedSeen := true }
  disk := createFiles emptySession.files

def Browser.opened (text : JsString) : Workspace where
  guard := { (ready.guard.counted 40256).write mainUri 1 text 0 false with
    pendingDocumentUpdate := none }
  disk := ready.disk.set (js "main.c") (toUtf8 text)

def Browser.closed (text : JsString) : Workspace where
  guard := { (opened text).guard.counted 256 with
    documents := (opened text).guard.documents.delete mainUri
    documentBytes := (opened text).guard.documentBytes - byteLength text }
  disk := (opened text).disk

end SmartC.Lsp
