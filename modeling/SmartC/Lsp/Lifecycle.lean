import SmartC.Lsp.Documents

/-!
# The session the guard lets through

The three flags and the open documents of the guard say exactly what has
happened so far in the session, so that every accepted message stands at its
place: the requests of the life cycle once and in order, everything about
documents between `initialized` and `shutdown`, edits only of open documents.
-/

namespace SmartC.Lsp

open Reference (Notification Documents replay readNotification method params documentUri)
open Transition (EachAfter)

variable {o : LspJsonRpcGuardOptions} {g g' : LspJsonRpcGuard} {message : Json}
  {createdAt : Int} {log : List Json}

def Seen (messages : List Json) (name : String) : Prop :=
  ∃ message ∈ messages, method message = some (js name)

def IsOpen (messages : List Json) (uri : JsString) : Prop :=
  ∃ docs document, replay messages = some docs ∧ docs uri = some document

/-- The root, and the one workspace folder if folders are given, are the session workspace. -/
def RootedAt (workspaceUri : JsString) (params : Option Json) : Prop :=
  Value.string (Value.property "rootUri" params) = some workspaceUri ∧
    (Value.isNullish (Value.property "workspaceFolders" params) = true ∨
      ∃ folder, Value.array (Value.property "workspaceFolders" params) = some [folder] ∧
        Value.string (Value.property "uri" (some folder)) = some workspaceUri)

def documentNotifications : List JsString := [
  js "textDocument/didOpen",
  js "textDocument/didChange",
  js "textDocument/didSave",
  js "textDocument/didClose"]

/-- A message of method `m` may stand after the messages before it. -/
structure LegalMethod (o : LspJsonRpcGuardOptions) (before : List Json) (message : Json)
    (m : JsString) : Prop where
  listed : m ∈ CLIENT_METHODS
  initializeOnce : m = js "initialize" →
    ¬Seen before "initialize" ∧ RootedAt o.workspaceUri (params message)
  initialized : m = js "initialized" → Seen before "initialize" ∧ ¬Seen before "initialized"
  shutdown : m = js "shutdown" → Seen before "initialized" ∧ ¬Seen before "shutdown"
  exit : m = js "exit" → Seen before "shutdown"
  active : startsWith m "textDocument/" = true ∨ startsWith m "workspace/" = true →
    Seen before "initialized" ∧ ¬Seen before "shutdown"
  didOpen : m = js "textDocument/didOpen" →
    ∃ uri ∈ o.documentUris, documentUri message = some uri ∧ ¬IsOpen before uri
  edited : m = js "textDocument/didChange" ∨ m = js "textDocument/didSave" ∨
      m = js "textDocument/didClose" →
    ∃ uri, documentUri message = some uri ∧ IsOpen before uri
  other : startsWith m "textDocument/" = true → m ∉ documentNotifications →
    ∃ uri ∈ o.documentUris, documentUri message = some uri

theorem seen_append {name : String} :
    Seen (log ++ [message]) name ↔ Seen log name ∨ method message = some (js name) := by
  simp [Seen, or_and_right, exists_or]

/-- The flags of the guard, read off the accepted messages. -/
structure Recalls (g : LspJsonRpcGuard) (log : List Json) : Prop where
  initializeSeen : g.initializeSeen = true ↔ Seen log "initialize"
  initializedSeen : g.initializedSeen = true ↔ Seen log "initialized"
  shutdownSeen : g.shutdownSeen = true ↔ Seen log "shutdown"

theorem Recalls.active (h : Recalls g log) (active : g.Active) :
    Seen log "initialized" ∧ ¬Seen log "shutdown" := by
  refine ⟨h.initializedSeen.1 active.1, fun hshutdown => ?_⟩
  rw [← h.shutdownSeen, active.2] at hshutdown
  cases hshutdown

theorem Recalls.keep {g' : LspJsonRpcGuard} (h : Recalls g log)
    (hrequest : g'.initializeSeen = g.initializeSeen)
    (hinitialized : g'.initializedSeen = g.initializedSeen)
    (hshutdown : g'.shutdownSeen = g.shutdownSeen)
    (hplain : ∀ name ∈ ["initialize", "initialized", "shutdown"], method message ≠ some (js name)) :
    Recalls g' (log ++ [message]) := by
  refine ⟨?_, ?_, ?_⟩
  · rw [hrequest, seen_append, or_iff_left (hplain _ (by simp))]
    exact h.initializeSeen
  · rw [hinitialized, seen_append, or_iff_left (hplain _ (by simp))]
    exact h.initializedSeen
  · rw [hshutdown, seen_append, or_iff_left (hplain _ (by simp))]
    exact h.shutdownSeen

def Notification.uri : Notification → JsString
  | .didOpen uri _ _ | .didChange uri _ _ | .didClose uri | .didSave uri _ => uri

theorem LegalMethod.of_active {m : JsString} (listed : m ∈ CLIENT_METHODS)
    (hm : m ∉ [js "initialize", js "initialized", js "shutdown", js "exit"])
    (active : Seen log "initialized" ∧ ¬Seen log "shutdown")
    (hopen : m = js "textDocument/didOpen" →
      ∃ uri ∈ o.documentUris, documentUri message = some uri ∧ ¬IsOpen log uri)
    (hedit : m = js "textDocument/didChange" ∨ m = js "textDocument/didSave" ∨
        m = js "textDocument/didClose" →
      ∃ uri, documentUri message = some uri ∧ IsOpen log uri)
    (hother : startsWith m "textDocument/" = true → m ∉ documentNotifications →
      ∃ uri ∈ o.documentUris, documentUri message = some uri) : LegalMethod o log message m where
  listed := listed
  initializeOnce := fun h => absurd (by simp [h]) hm
  initialized := fun h => absurd (by simp [h]) hm
  shutdown := fun h => absurd (by simp [h]) hm
  exit := fun h => absurd (by simp [h]) hm
  active := fun _ => active
  didOpen := hopen
  edited := hedit
  other := hother

end SmartC.Lsp
