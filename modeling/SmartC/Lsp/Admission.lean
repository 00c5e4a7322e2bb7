import SmartC.Lsp.Reference
import SmartC.Transition

/-!
# What the guard admits

Every way in which `validateClientMessage` accepts a message, with what it
checked and what it changes. The properties of the guard are derived from these
cases, and from the fact that a rejected message only moves the counters.
-/

namespace SmartC.Lsp

open Reference (Notification readNotification method params documentUri)

def LspJsonRpcGuard.Active (g : LspJsonRpcGuard) : Prop :=
  g.initializedSeen = true ∧ g.shutdownSeen = false

def IsDocumentVersion (version : Int) : Prop := 0 ≤ version ∧ version ≤ maxSafeInteger

/-- A document gets a text and a version, in place of `old` bytes. -/
def LspJsonRpcGuard.write (g : LspJsonRpcGuard) (uri : JsString) (version : Int) (text : JsString)
    (old : Nat) (notifyDependents : Bool) : LspJsonRpcGuard :=
  { g with
    documents := g.documents.set uri ⟨text, version, byteLength text⟩
    documentBytes := g.documentBytes - old + byteLength text
    pendingDocumentUpdate := some ⟨uri, text, notifyDependents⟩ }

def trackedMethods : List JsString := [
  js "initialize",
  js "initialized",
  js "shutdown",
  js "exit",
  js "textDocument/didOpen",
  js "textDocument/didChange",
  js "textDocument/didClose",
  js "textDocument/didSave"]

inductive Admitted (o : LspJsonRpcGuardOptions) (g : LspJsonRpcGuard) (message : Json) :
    LspJsonRpcGuard → Prop
  | response (named : method message = none) (read : readNotification message = none) :
      Admitted o g message g
  | ungated {m : JsString} (named : method message = some m)
      (read : readNotification message = none)
      (either : m = js "$/cancelRequest" ∨ m = js "$/setTrace") : Admitted o g message g
  | initializeRequest (named : method message = some (js "initialize"))
      (read : readNotification message = none) (first : g.initializeSeen = false)
      (valid : isValidInitializeParams o (params message) = true) :
      Admitted o g message { g with initializeSeen := true }
  | initialized (named : method message = some (js "initialized"))
      (read : readNotification message = none) (after : g.initializeSeen = true)
      (first : g.initializedSeen = false) :
      Admitted o g message { g with initializedSeen := true }
  | shutdown (named : method message = some (js "shutdown"))
      (read : readNotification message = none) (after : g.initializedSeen = true)
      (first : g.shutdownSeen = false) :
      Admitted o g message { g with shutdownSeen := true }
  | exit (named : method message = some (js "exit")) (read : readNotification message = none)
      (after : g.shutdownSeen = true) : Admitted o g message g
  | didOpen {uri version text} (named : method message = some (js "textDocument/didOpen"))
      (active : g.Active) (read : readNotification message = some (.didOpen uri version text))
      (allowed : uri ∈ o.documentUris) (closed : g.documents.get uri = none)
      (number : IsDocumentVersion version)
      (safe : isSafeDocumentText text o.maxDocumentBytes = true)
      (fits : g.documentBytes + byteLength text ≤ o.maxDocumentBytes) :
      Admitted o g message (g.write uri version text 0 false)
  | didChange {uri version changes document text}
      (named : method message = some (js "textDocument/didChange"))
      (active : g.Active) (read : readNotification message = some (.didChange uri version changes))
      (opened : g.documents.get uri = some document) (newer : document.version < version)
      (number : IsDocumentVersion version)
      (applied : changes.foldlM Reference.Change.apply document.text = some text)
      (safe : isSafeDocumentText text o.maxDocumentBytes = true)
      (fits : g.documentBytes - document.bytes + byteLength text ≤ o.maxDocumentBytes) :
      Admitted o g message (g.write uri version text document.bytes true)
  | didClose {uri document} (named : method message = some (js "textDocument/didClose"))
      (active : g.Active) (read : readNotification message = some (.didClose uri))
      (opened : g.documents.get uri = some document) :
      Admitted o g message { g with
        documents := g.documents.delete uri
        documentBytes := g.documentBytes - document.bytes }
  | didSave {uri document} (named : method message = some (js "textDocument/didSave"))
      (active : g.Active) (read : readNotification message = some (.didSave uri none))
      (opened : g.documents.get uri = some document) : Admitted o g message g
  | didSaveText {uri document text} (named : method message = some (js "textDocument/didSave"))
      (active : g.Active) (read : readNotification message = some (.didSave uri (some text)))
      (opened : g.documents.get uri = some document)
      (safe : isSafeDocumentText text o.maxDocumentBytes = true)
      (fits : g.documentBytes - document.bytes + byteLength text ≤ o.maxDocumentBytes) :
      Admitted o g message (g.write uri document.version text document.bytes true)
  | other {m : JsString} (named : method message = some m)
      (read : readNotification message = none) (active : g.Active)
      (listed : m ∈ CLIENT_METHODS) (plain : m ∉ trackedMethods)
      (allowed : m ∈ DOCUMENT_METHODS → ∃ uri ∈ o.documentUris, documentUri message = some uri) :
      Admitted o g message g

/-! ### The checks, one by one -/

theorem property_textDocument (key : String) (ps : Option Json) :
    Value.property key (textDocument ps) =
      Value.property key (Value.property "textDocument" ps) := by
  unfold textDocument
  generalize Value.property "textDocument" ps = document
  cases document with
  | none => rfl
  | some value => cases value <;> rfl

theorem textDocumentUri_params (message : Json) :
    textDocumentUri (params message) = documentUri message := by
  rw [textDocumentUri, property_textDocument]
  rfl

theorem isDocumentVersion_of {value : Option Json} {version : Int}
    (h : documentVersion value = some version) : IsDocumentVersion version := by
  unfold documentVersion at h
  split at h
  · next z hsafe =>
    split at h
    · next hnonneg =>
      cases h
      refine ⟨hnonneg, ?_⟩
      unfold Value.safeInteger at hsafe
      split at hsafe
      · next x =>
        cases x with
        | finite q =>
          simp only [JsNumber.safeInteger] at hsafe
          split at hsafe
          · next hbound =>
            cases hsafe
            exact hbound.2.2
          · cases hsafe
        | infinite => cases hsafe
      · cases hsafe
    · cases h
  · cases h

theorem readNotification_of_unnamed {message : Json} (named : method message = none) :
    readNotification message = none := by
  rw [readNotification, named]
  simp

theorem readNotification_eq_none {message : Json} {m : JsString} (named : method message = some m)
    (hopen : m ≠ js "textDocument/didOpen") (hchange : m ≠ js "textDocument/didChange")
    (hclose : m ≠ js "textDocument/didClose") (hsave : m ≠ js "textDocument/didSave") :
    readNotification message = none := by
  rw [readNotification, named]
  simp only [Option.some.injEq, hopen, hchange, hclose, hsave, if_false]

theorem readNotification_didOpen {message : Json}
    (h : method message = some (js "textDocument/didOpen")) :
    readNotification message = Reference.readDidOpen message := by
  rw [readNotification, if_pos h]

theorem readNotification_didChange {message : Json}
    (h : method message = some (js "textDocument/didChange")) :
    readNotification message = Reference.readDidChange message := by
  rw [readNotification, h, if_neg (by decide), if_pos rfl]

theorem readNotification_didClose {message : Json}
    (h : method message = some (js "textDocument/didClose")) :
    readNotification message = Reference.readDidClose message := by
  rw [readNotification, h, if_neg (by decide), if_neg (by decide), if_pos rfl]

theorem readNotification_didSave {message : Json}
    (h : method message = some (js "textDocument/didSave")) :
    readNotification message = Reference.readDidSave message := by
  rw [readNotification, h, if_neg (by decide), if_neg (by decide), if_neg (by decide), if_pos rfl]

variable {o : LspJsonRpcGuardOptions} {g g' : LspJsonRpcGuard} {message : Json}

theorem validateDidOpen_ok (named : method message = some (js "textDocument/didOpen"))
    (active : g.Active) (h : g.validateDidOpen o (params message) = .ok g') :
    Admitted o g message g' := by
  unfold LspJsonRpcGuard.validateDidOpen at h
  split at h
  · cases h
  · next document hdocument =>
    rw [← hdocument] at h
    simp only [property_textDocument] at h
    split at h
    · next uri text version huri htext hversion =>
      split at h
      · cases h
      · next hdoc =>
        obtain ⟨hallowed, hclosed, hsafe⟩ := not_or.1 hdoc |>.imp_right not_or.1
        split at h
        · cases h
        · next hfits =>
          cases h
          have hread : readNotification message = some (.didOpen uri version text) := by
            rw [readNotification_didOpen named, Reference.readDidOpen, documentUri]
            simp only [huri, htext, Reference.readInteger_of_documentVersion hversion]
          have hget : g.documents.get uri = none := by
            simpa [OrderedMap.has] using hclosed
          have hwrite := Admitted.didOpen named active hread (not_not.1 hallowed) hget
            (isDocumentVersion_of hversion) (by simpa using hsafe) (Int.not_lt.1 hfits)
          simpa [LspJsonRpcGuard.write] using hwrite
    · cases h

theorem replaceText_ok {uri : JsString} {document : TrackedDocument} {version : Int}
    {nextText : JsString} (h : g.replaceText o uri document version nextText = .ok g') :
    g.documentBytes - document.bytes + byteLength nextText ≤ o.maxDocumentBytes ∧
      g' = g.write uri version nextText document.bytes true := by
  unfold LspJsonRpcGuard.replaceText at h
  dsimp only at h
  split at h
  · cases h
  · next hfits =>
    cases h
    exact ⟨Int.not_lt.1 hfits, rfl⟩

theorem validateDidChange_ok (named : method message = some (js "textDocument/didChange"))
    (active : g.Active) (h : g.validateDidChange o (params message) = .ok g') :
    Admitted o g message g' := by
  unfold LspJsonRpcGuard.validateDidChange at h
  simp only [property_textDocument, textDocumentUri_params] at h
  split at h
  · next uri version rawChanges huri hversion hchanges =>
    split at h
    · cases h
    · next hcount =>
      split at h
      · cases h
      · next document hget =>
        split at h
        · cases h
        · next hnewer =>
          split at h
          · cases h
          · next nextText hfold =>
            obtain ⟨hfits, rfl⟩ := replaceText_ok h
            obtain ⟨changes, hread, happlied⟩ := Reference.foldlM_applyDocumentChange hfold
            have hne : rawChanges ≠ [] := by
              rintro rfl
              exact hcount (.inl rfl)
            refine .didChange named active ?_ hget (Int.not_le.1 hnewer)
              (isDocumentVersion_of hversion) happlied
              (Reference.foldlM_applyDocumentChange_safe hne hfold) hfits
            rw [readNotification_didChange named, Reference.readDidChange]
            simp only [huri, Reference.readInteger_of_documentVersion hversion, hchanges, hread,
              Option.map_some]
  · cases h

theorem validateDidClose_ok (named : method message = some (js "textDocument/didClose"))
    (active : g.Active) (h : g.validateDidClose (params message) = .ok g') :
    Admitted o g message g' := by
  unfold LspJsonRpcGuard.validateDidClose at h
  rw [textDocumentUri_params] at h
  split at h
  · cases h
  · next uri huri =>
    split at h
    · cases h
    · next document hget =>
      cases h
      refine .didClose named active ?_ hget
      rw [readNotification_didClose named, Reference.readDidClose, huri, Option.map_some]

theorem validateDidSave_ok (named : method message = some (js "textDocument/didSave"))
    (active : g.Active) (h : g.validateDidSave o (params message) = .ok g') :
    Admitted o g message g' := by
  unfold LspJsonRpcGuard.validateDidSave at h
  rw [textDocumentUri_params] at h
  have hread := readNotification_didSave named
  rw [Reference.readDidSave] at hread
  split at h
  · cases h
  · next uri huri =>
    rw [huri, Option.map_some] at hread
    split at h
    · cases h
    · next document hget =>
      split at h
      · next hnone =>
        cases h
        rw [hnone] at hread
        exact .didSave named active hread hget
      · next value hvalue =>
        rw [hvalue] at hread
        split at h
        · cases h
        · next text htext =>
          rw [htext] at hread
          split at h
          · cases h
          · next hsafe =>
            obtain ⟨hfits, rfl⟩ := replaceText_ok h
            exact .didSaveText named active hread hget (by simpa using hsafe) hfits

theorem validateActiveMethod_ok {m : JsString} (named : method message = some m)
    (listed : m ∈ CLIENT_METHODS)
    (gated : m ∉ [js "initialize", js "initialized", js "shutdown", js "exit"])
    (active : g.Active) (h : g.validateActiveMethod o m (params message) = .ok g') :
    Admitted o g message g' := by
  unfold LspJsonRpcGuard.validateActiveMethod at h
  split at h
  · next hm => exact validateDidOpen_ok (hm ▸ named) active h
  split at h
  · next hm => exact validateDidChange_ok (hm ▸ named) active h
  split at h
  · next hm => exact validateDidClose_ok (hm ▸ named) active h
  split at h
  · next hm => exact validateDidSave_ok (hm ▸ named) active h
  next hopen hchange hclose hsave =>
  have hread := readNotification_eq_none named hopen hchange hclose hsave
  have hplain : m ∉ trackedMethods := by
    simp only [List.mem_cons, List.not_mem_nil, or_false, not_or] at gated
    simp only [trackedMethods, List.mem_cons, List.not_mem_nil, or_false, not_or]
    obtain ⟨hrequest, hinitialized, hshutdown, hexit⟩ := gated
    exact ⟨hrequest, hinitialized, hshutdown, hexit, hopen, hchange, hclose, hsave⟩
  split at h
  · next hm =>
    split at h
    · cases h
      refine .other named hread active listed hplain fun hdocument => ?_
      have hstart := (List.mem_filter.1 hdocument).2
      rw [hm] at hstart
      exact absurd hstart (by decide)
    · cases h
  split at h
  · cases h
  next hdocument =>
  cases h
  refine .other named hread active listed hplain fun hmem => ?_
  have hallowed : hasAllowedTextDocument (params message) o.documentUris = true := by
    by_contra hnot
    exact hdocument ⟨hmem, by simpa using hnot⟩
  unfold hasAllowedTextDocument at hallowed
  rw [textDocumentUri_params] at hallowed
  split at hallowed
  · next uri huri => exact ⟨uri, of_decide_eq_true hallowed, huri⟩
  · cases hallowed

theorem validateClientMethod_ok {m : JsString} (named : method message = some m)
    (listed : m ∈ CLIENT_METHODS) (h : g.validateClientMethod o m (params message) = .ok g') :
    Admitted o g message g' := by
  unfold LspJsonRpcGuard.validateClientMethod at h
  split at h
  · next hm =>
    cases h
    refine .ungated named ?_ hm
    rcases hm with rfl | rfl
    · exact readNotification_eq_none named (by decide) (by decide) (by decide) (by decide)
    · exact readNotification_eq_none named (by decide) (by decide) (by decide) (by decide)
  split at h
  · next hm =>
    subst hm
    split at h
    · cases h
    · next hvalid =>
      cases h
      obtain ⟨hfirst, hparams⟩ := not_or.1 hvalid
      exact .initializeRequest named
        (readNotification_eq_none named (by decide) (by decide) (by decide) (by decide))
        (by simpa using hfirst) (by simpa using hparams)
  split at h
  · next hm =>
    subst hm
    split at h
    · cases h
    · next hvalid =>
      cases h
      obtain ⟨hafter, hfirst⟩ := not_or.1 hvalid
      exact .initialized named
        (readNotification_eq_none named (by decide) (by decide) (by decide) (by decide))
        (by simpa using hafter) (by simpa using hfirst)
  split at h
  · next hm =>
    subst hm
    split at h
    · cases h
    · next hvalid =>
      cases h
      obtain ⟨hafter, hfirst⟩ := not_or.1 hvalid
      exact .shutdown named
        (readNotification_eq_none named (by decide) (by decide) (by decide) (by decide))
        (by simpa using hafter) (by simpa using hfirst)
  split at h
  · next hm =>
    subst hm
    split at h
    · next hafter =>
      cases h
      exact .exit named
        (readNotification_eq_none named (by decide) (by decide) (by decide) (by decide)) hafter
    · cases h
  split at h
  · cases h
  next hrequest hinitialized hshutdown hexit hactive =>
  obtain ⟨hseen, hnot⟩ := not_or.1 hactive
  refine validateActiveMethod_ok named listed ?_ ⟨by simpa using hseen, by simpa using hnot⟩ h
  simp only [List.mem_cons, List.not_mem_nil, or_false, not_or]
  exact ⟨hrequest, hinitialized, hshutdown, hexit⟩

theorem value_of_parseJsonObject {content : Content}
    (h : parseJsonObject content = some message) : content.value = some message := by
  unfold parseJsonObject at h
  split at h
  · exact h
  · cases h

theorem validateClientContent_ok {content : Content}
    (h : g.validateClientContent o content = .ok g') :
    ∃ message, content.value = some message ∧ Admitted o g message g' := by
  unfold LspJsonRpcGuard.validateClientContent at h
  split at h
  · cases h
  next message hparse =>
  refine ⟨message, value_of_parseJsonObject hparse, ?_⟩
  split at h
  · cases h
  split at h
  · cases h
  split at h
  · next hnone =>
    split at h
    · cases h
      have hunnamed : method message = none := by
        rw [method, hnone]
        rfl
      exact .response hunnamed (readNotification_of_unnamed hunnamed)
    · cases h
  · next value hmethod =>
    split at h
    · cases h
    · next m hm =>
      split at h
      · cases h
      · next hlisted =>
        exact validateClientMethod_ok (by rw [method, hmethod, hm]) (not_not.1 hlisted) h

/-! ### One message -/

/-- The guard as the checks behind the budget find it. -/
def LspJsonRpcGuard.charged (g : LspJsonRpcGuard) (startedAt : Int) (messages bytes : Nat) :
    LspJsonRpcGuard :=
  { g with
    clientWindowStartedAt := startedAt
    clientMessagesInWindow := messages
    clientSessionBytes := bytes
    pendingDocumentUpdate := none }

theorem consumeClientBudget_eq (o : LspJsonRpcGuardOptions) (now : Int) (bytes : Nat)
    (g : LspJsonRpcGuard) (hpending : g.pendingDocumentUpdate = none) :
    ∃ startedAt messages total,
      (g.consumeClientBudget o now bytes).2 = g.charged startedAt messages total := by
  obtain ⟨startedAt, messages, total, server, i, ii, s, docs, docBytes, pending⟩ := g
  obtain rfl : pending = none := hpending
  unfold LspJsonRpcGuard.consumeClientBudget
  dsimp only
  split
  · split
    · exact ⟨_, _, _, rfl⟩
    · split
      · exact ⟨_, _, _, rfl⟩
      · exact ⟨_, _, _, rfl⟩
  · split
    · exact ⟨_, _, _, rfl⟩
    · split
      · exact ⟨_, _, _, rfl⟩
      · exact ⟨_, _, _, rfl⟩

theorem validateClientMessage_content (o : LspJsonRpcGuardOptions) (now : Int) (content : Content)
    (g : LspJsonRpcGuard) :
    ∃ startedAt messages bytes,
      (∃ violation, g.validateClientMessage o now content =
        (.error violation, g.charged startedAt messages bytes)) ∨
      ∃ g', g.validateClientMessage o now content = (.ok (), g') ∧
        (g.charged startedAt messages bytes).validateClientContent o content = .ok g' := by
  obtain ⟨startedAt, messages, bytes, hbudget⟩ :=
    consumeClientBudget_eq o now content.bytes { g with pendingDocumentUpdate := none } rfl
  refine ⟨startedAt, messages, bytes, ?_⟩
  unfold LspJsonRpcGuard.validateClientMessage
  dsimp only
  split
  · next violation g₁ hbranch =>
    rw [hbranch] at hbudget
    obtain rfl : g₁ = g.charged startedAt messages bytes := hbudget
    exact .inl ⟨violation, rfl⟩
  · next g₁ hbranch =>
    rw [hbranch] at hbudget
    obtain rfl : g₁ = g.charged startedAt messages bytes := hbudget
    split
    · next violation _ => exact .inl ⟨violation, rfl⟩
    · next g' hok => exact .inr ⟨g', rfl, hok⟩

theorem validateClientMessage_cases (o : LspJsonRpcGuardOptions) (now : Int) (content : Content)
    (g : LspJsonRpcGuard) :
    ∃ startedAt messages bytes,
      (∃ violation, g.validateClientMessage o now content =
        (.error violation, g.charged startedAt messages bytes)) ∨
      ∃ message g', g.validateClientMessage o now content = (.ok (), g') ∧
        content.value = some message ∧
        Admitted o (g.charged startedAt messages bytes) message g' := by
  obtain ⟨startedAt, messages, bytes, hrejected | ⟨g', hv, hok⟩⟩ :=
    validateClientMessage_content o now content g
  · exact ⟨startedAt, messages, bytes, .inl hrejected⟩
  · obtain ⟨message, hvalue, hadmitted⟩ := validateClientContent_ok hok
    exact ⟨startedAt, messages, bytes, .inr ⟨message, g', hv, hvalue, hadmitted⟩⟩

/-! ### Runs -/

structure Arrival where
  now : Int
  content : Content

def guardSystem (o : LspJsonRpcGuardOptions) (createdAt : Int) :
    Transition.System LspJsonRpcGuard Arrival :=
  .ofStep (.new createdAt) fun g a => some (g.validateClientMessage o a.now a.content).2

def isOk : Except Violation Unit → Bool
  | .ok _ => true
  | .error _ => false

def acceptedMessage (o : LspJsonRpcGuardOptions) (g : LspJsonRpcGuard) (a : Arrival) : List Json :=
  if isOk (g.validateClientMessage o a.now a.content).1 then a.content.value.toList else []

/-- A guard after any sequence of messages, with those it accepted. -/
abbrev Fed (o : LspJsonRpcGuardOptions) (createdAt : Int) : LspJsonRpcGuard → List Json → Prop :=
  Transition.RecordedWhen (guardSystem o createdAt) (fun _ _ => True) (acceptedMessage o)

/-- The invariant rule: what holds of a new guard, does not depend on the counters and is
kept by every admitted message, holds after every sequence of messages. -/
theorem Fed.invariant {createdAt : Int} {log : List Json} {I : LspJsonRpcGuard → List Json → Prop}
    (h : Fed o createdAt g log) (init : I (.new createdAt) [])
    (charge : ∀ {g log startedAt messages bytes}, I g log → I (g.charged startedAt messages bytes) log)
    (accept : ∀ {g g' log message}, I g log → Admitted o g message g' → I g' (log ++ [message])) :
    I g log := by
  refine Transition.RecordedWhen.invariant h init ?_
  intro g g' a log _ hinv _ hstep
  obtain rfl : (g.validateClientMessage o a.now a.content).2 = g' := Option.some.inj hstep
  obtain ⟨startedAt, messages, bytes, ⟨violation, hv⟩ | ⟨message, g', hv, hvalue, hadmitted⟩⟩ :=
    validateClientMessage_cases o a.now a.content g
  · rw [acceptedMessage, hv, if_neg (by simp [isOk]), List.append_nil]
    exact charge hinv
  · rw [acceptedMessage, hv, hvalue]
    exact accept (charge hinv) hadmitted

/-! ### Messages of a browser -/

namespace Browser

def rpc (method : String) (params : Json) : Json := .object [
  (js "jsonrpc", .string (js "2.0")),
  (js "method", .string (js method)),
  (js "params", params)]

def integer (n : Int) : Json := .number (.finite n)

def mainUri : JsString := js "file:///workspace/main.c"

def headerUri : JsString := js "file:///workspace/util.h"

def session : LspJsonRpcGuardOptions where
  documentUris := [mainUri, headerUri]
  workspaceUri := js "file:///workspace"
  workspacePath := js "/workspace"

def position (line character : Nat) : Json := .object [
  (js "line", integer line),
  (js "character", integer character)]

def rangedChange (start stop : Nat × Nat) (text : JsString) : Json := .object [
  (js "range", .object [
    (js "start", position start.1 start.2),
    (js "end", position stop.1 stop.2)]),
  (js "text", .string text)]

def initializeRequest (workspaceUri : JsString) : Json :=
  rpc "initialize" (.object [(js "rootUri", .string workspaceUri)])

def initialized : Json := rpc "initialized" (.object [])

def didOpen (uri : JsString) (version : Int) (text : JsString) : Json :=
  rpc "textDocument/didOpen" (.object [(js "textDocument", .object [
    (js "uri", .string uri),
    (js "version", integer version),
    (js "text", .string text)])])

def didChange (uri : JsString) (version : Int) (contentChanges : List Json) : Json :=
  rpc "textDocument/didChange" (.object [
    (js "textDocument", .object [(js "uri", .string uri), (js "version", integer version)]),
    (js "contentChanges", .array contentChanges)])

def didClose (uri : JsString) : Json :=
  rpc "textDocument/didClose" (.object [(js "textDocument", .object [(js "uri", .string uri)])])

def send (message : Json) (bytes : Nat := 256) : Arrival := ⟨0, ⟨bytes, some message⟩⟩

end Browser

end SmartC.Lsp
