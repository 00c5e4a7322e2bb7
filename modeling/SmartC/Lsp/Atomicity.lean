import SmartC.Fallible
import SmartC.Lsp.Admission

/-!
# Rejected messages have no effect

The guard as the program that it is: its handlers assign to one field after the
other, and a violation returned after an assignment would keep it. The program
does what the functions of `LspJsonRpcGuard` say, which return either a
violation or the next state.
-/

namespace SmartC.Lsp

open Fallible
open Reference (method params documentUri)

abbrev GuardM := Fallible Violation LspJsonRpcGuard

namespace GuardM

variable (o : LspJsonRpcGuardOptions)

def validateDidOpen (params : Option Json) : GuardM Unit :=
  match textDocument params with
  | none => throw (policyViolation "Invalid didOpen notification")
  | some document => do
    let g ← get
    match Value.string (Value.property "uri" (some document)),
      Value.string (Value.property "text" (some document)),
      documentVersion (Value.property "version" (some document)) with
    | some uri, some text, some version =>
      if uri ∉ o.documentUris ∨ g.documents.has uri ∨
          !isSafeDocumentText text o.maxDocumentBytes then
        throw (policyViolation "Invalid didOpen document")
      else
        let bytes := byteLength text
        if g.documentBytes + bytes > o.maxDocumentBytes then
          throw (policyViolation "Open documents are too large")
        else do
          modify fun g => { g with documents := g.documents.set uri ⟨text, version, bytes⟩ }
          modify fun g => { g with documentBytes := g.documentBytes + bytes }
          modify fun g => { g with pendingDocumentUpdate := some ⟨uri, text, false⟩ }
    | _, _, _ => throw (policyViolation "Invalid didOpen document")

/-- The end of `validateDidChange` and `validateDidSave`. -/
def replaceText (uri : JsString) (document : TrackedDocument) (version : Int)
    (nextText : JsString) : GuardM Unit := do
  let nextBytes := byteLength nextText
  let g ← get
  if g.documentBytes - document.bytes + nextBytes > o.maxDocumentBytes then
    throw (policyViolation "Open documents are too large")
  else do
    modify fun g => { g with documentBytes := g.documentBytes - document.bytes + nextBytes }
    modify fun g => { g with documents := g.documents.set uri ⟨nextText, version, nextBytes⟩ }
    modify fun g => { g with pendingDocumentUpdate := some ⟨uri, nextText, true⟩ }

def applyChanges : JsString → List Json → GuardM JsString
  | nextText, [] => pure nextText
  | nextText, change :: contentChanges =>
    match applyDocumentChange o.maxDocumentBytes nextText change with
    | none => throw (policyViolation "Invalid or oversized document change")
    | some applied => applyChanges applied contentChanges

def validateDidChange (params : Option Json) : GuardM Unit :=
  match textDocumentUri params,
    documentVersion (Value.property "version" (textDocument params)),
    Value.array (Value.property "contentChanges" params) with
  | some uri, some version, some contentChanges =>
    if contentChanges.length = 0 ∨ contentChanges.length > LSP_MAX_CONTENT_CHANGES then
      throw (policyViolation "Invalid didChange notification")
    else do
      let g ← get
      match g.documents.get uri with
      | none => throw (policyViolation "Invalid didChange document")
      | some document =>
        if version ≤ document.version then
          throw (policyViolation "Invalid didChange document")
        else do
          let nextText ← applyChanges o document.text contentChanges
          replaceText o uri document version nextText
  | _, _, _ => throw (policyViolation "Invalid didChange notification")

def validateDidClose (params : Option Json) : GuardM Unit :=
  match textDocumentUri params with
  | none => throw (policyViolation "Invalid didClose notification")
  | some uri => do
    let g ← get
    match g.documents.get uri with
    | none => throw (policyViolation "Invalid didClose document")
    | some document => do
      modify fun g => { g with documents := g.documents.delete uri }
      modify fun g => { g with documentBytes := g.documentBytes - document.bytes }

def validateDidSave (params : Option Json) : GuardM Unit :=
  match textDocumentUri params with
  | none => throw (policyViolation "Invalid didSave notification")
  | some uri => do
    let g ← get
    match g.documents.get uri with
    | none => throw (policyViolation "Invalid didSave document")
    | some document =>
      match Value.property "text" params with
      | none => pure ()
      | some value =>
        match Value.string (some value) with
        | none => throw (policyViolation "Invalid didSave document")
        | some text =>
          if !isSafeDocumentText text o.maxDocumentBytes then
            throw (policyViolation "Invalid didSave document")
          else replaceText o uri document document.version text

def validateActiveMethod (method : JsString) (params : Option Json) : GuardM Unit :=
  if method = js "textDocument/didOpen" then validateDidOpen o params
  else if method = js "textDocument/didChange" then validateDidChange o params
  else if method = js "textDocument/didClose" then validateDidClose params
  else if method = js "textDocument/didSave" then validateDidSave o params
  else if method = js "workspace/didChangeConfiguration" then
    if isSafeConfigurationChange params then pure ()
    else throw (policyViolation "Workspace configuration is not allowed")
  else if method ∈ DOCUMENT_METHODS ∧ !hasAllowedTextDocument params o.documentUris then
    throw (policyViolation "Unexpected text document")
  else pure ()

def validateClientMethod (method : JsString) (params : Option Json) : GuardM Unit := do
  let g ← get
  if method = js "$/cancelRequest" ∨ method = js "$/setTrace" then pure ()
  else if method = js "initialize" then
    if g.initializeSeen ∨ !isValidInitializeParams o params then
      throw (policyViolation "Invalid initialize request")
    else modify fun g => { g with initializeSeen := true }
  else if method = js "initialized" then
    if !g.initializeSeen ∨ g.initializedSeen then
      throw (policyViolation "Invalid initialized notification")
    else modify fun g => { g with initializedSeen := true }
  else if method = js "shutdown" then
    if !g.initializedSeen ∨ g.shutdownSeen then
      throw (policyViolation "Invalid shutdown request")
    else modify fun g => { g with shutdownSeen := true }
  else if method = js "exit" then
    if g.shutdownSeen then pure () else throw (policyViolation "Exit before shutdown")
  else if !g.initializedSeen ∨ g.shutdownSeen then
    throw (policyViolation "LSP session is not active")
  else validateActiveMethod o method params

def validateClientContent (content : Content) : GuardM Unit :=
  match parseJsonObject content with
  | none => throw (policyViolation "Invalid JSON-RPC message")
  | some message =>
    if Value.string (Value.property "jsonrpc" (some message)) ≠ some (js "2.0") then
      throw (policyViolation "Invalid JSON-RPC message")
    else if hasUnexpectedUri o message then throw (policyViolation "Unexpected document URI")
    else match Value.property "method" (some message) with
      | none =>
        if isJsonRpcResponse (some message) then pure ()
        else throw (policyViolation "Invalid JSON-RPC response")
      | some value =>
        match Value.string (some value) with
        | none => throw (policyViolation "LSP method is not allowed")
        | some method =>
          if method ∉ CLIENT_METHODS then throw (policyViolation "LSP method is not allowed")
          else validateClientMethod o method (Value.property "params" (some message))

/-- The window of the message count, which begins anew when it is over. -/
def restartWindow (now : Int) : GuardM Unit := do
  let g ← get
  if now - g.clientWindowStartedAt ≥ o.clientRateWindowMs then do
    modify fun g => { g with clientWindowStartedAt := now }
    modify fun g => { g with clientMessagesInWindow := 0 }
  else pure ()

def consumeClientBudget (now : Int) (contentBytes : Nat) : GuardM Unit := do
  restartWindow o now
  let g ← get
  if g.clientMessagesInWindow ≥ o.clientMaxMessagesPerWindow then
    throw (overloadViolation "LSP message rate exceeded")
  else if g.clientSessionBytes + contentBytes > o.clientMaxSessionBytes then
    throw (sizeViolation "LSP request budget exceeded")
  else do
    modify fun g => { g with clientMessagesInWindow := g.clientMessagesInWindow + 1 }
    modify fun g => { g with clientSessionBytes := g.clientSessionBytes + contentBytes }

def validateClientMessage (now : Int) (content : Content) : GuardM Unit := do
  modify fun g => { g with pendingDocumentUpdate := none }
  consumeClientBudget o now content.bytes
  validateClientContent o content

/-! ### The handlers are all or nothing -/

variable {o : LspJsonRpcGuardOptions}

theorem allOrNothing_validateDidOpen (params : Option Json) :
    AllOrNothing (validateDidOpen o params) (LspJsonRpcGuard.validateDidOpen o params) := by
  intro g
  unfold validateDidOpen LspJsonRpcGuard.validateDidOpen
  cases textDocument params with
  | none => rfl
  | some document =>
    simp only [exec_bind, exec_get]
    cases Value.string (Value.property "uri" (some document)) with
    | none => rfl
    | some uri => ?_
    cases Value.string (Value.property "text" (some document)) with
    | none => rfl
    | some text => ?_
    cases documentVersion (Value.property "version" (some document)) with
    | none => rfl
    | some version => ?_
    simp only [exec_ite]
    split
    · rfl
    · split <;> rfl

theorem allOrNothing_replaceText (uri : JsString) (document : TrackedDocument) (version : Int)
    (nextText : JsString) :
    AllOrNothing (replaceText o uri document version nextText)
      (LspJsonRpcGuard.replaceText o uri document version nextText) := by
  intro g
  unfold replaceText LspJsonRpcGuard.replaceText
  simp only [exec_bind, exec_get, exec_ite]
  split <;> rfl

theorem exec_applyChanges (contentChanges : List Json) (nextText : JsString) (g : LspJsonRpcGuard) :
    (applyChanges o nextText contentChanges).exec g =
      match contentChanges.foldlM (applyDocumentChange o.maxDocumentBytes) nextText with
      | none => (.error (policyViolation "Invalid or oversized document change"), g)
      | some text => (.ok text, g) := by
  induction contentChanges generalizing nextText with
  | nil => rfl
  | cons change contentChanges ih =>
    rw [applyChanges, List.foldlM_cons]
    cases applyDocumentChange o.maxDocumentBytes nextText change with
    | none => rfl
    | some applied => exact ih applied

theorem allOrNothing_validateDidChange (params : Option Json) :
    AllOrNothing (validateDidChange o params) (LspJsonRpcGuard.validateDidChange o params) := by
  intro g
  unfold validateDidChange LspJsonRpcGuard.validateDidChange
  cases textDocumentUri params with
  | none => rfl
  | some uri => ?_
  cases documentVersion (Value.property "version" (textDocument params)) with
  | none => rfl
  | some version => ?_
  cases Value.array (Value.property "contentChanges" params) with
  | none => rfl
  | some contentChanges => ?_
  simp only [exec_ite, exec_bind, exec_get]
  split
  · rfl
  cases g.documents.get uri with
  | none => rfl
  | some document =>
    simp only [exec_ite, exec_bind, exec_applyChanges]
    split
    · rfl
    cases contentChanges.foldlM (applyDocumentChange o.maxDocumentBytes) document.text with
    | none => rfl
    | some nextText => exact allOrNothing_replaceText uri document version nextText g

theorem allOrNothing_validateDidClose (params : Option Json) :
    AllOrNothing (validateDidClose params) (LspJsonRpcGuard.validateDidClose params) := by
  intro g
  unfold validateDidClose LspJsonRpcGuard.validateDidClose
  cases textDocumentUri params with
  | none => rfl
  | some uri =>
    simp only [exec_bind, exec_get]
    cases g.documents.get uri <;> rfl

theorem allOrNothing_validateDidSave (params : Option Json) :
    AllOrNothing (validateDidSave o params) (LspJsonRpcGuard.validateDidSave o params) := by
  intro g
  unfold validateDidSave LspJsonRpcGuard.validateDidSave
  cases textDocumentUri params with
  | none => rfl
  | some uri => ?_
  simp only [exec_bind, exec_get]
  cases g.documents.get uri with
  | none => rfl
  | some document => ?_
  cases Value.property "text" params with
  | none => rfl
  | some value => ?_
  dsimp only
  cases Value.string (some value) with
  | none => rfl
  | some text =>
    simp only [exec_ite]
    split
    · rfl
    · exact allOrNothing_replaceText uri document document.version text g

theorem allOrNothing_validateActiveMethod (method : JsString) (params : Option Json) :
    AllOrNothing (validateActiveMethod o method params)
      (LspJsonRpcGuard.validateActiveMethod o method params) := by
  intro g
  unfold validateActiveMethod LspJsonRpcGuard.validateActiveMethod
  simp only [exec_ite]
  split
  · exact allOrNothing_validateDidOpen params g
  split
  · exact allOrNothing_validateDidChange params g
  split
  · exact allOrNothing_validateDidClose params g
  split
  · exact allOrNothing_validateDidSave params g
  split
  · split <;> rfl
  · split <;> rfl

theorem allOrNothing_validateClientMethod (method : JsString) (params : Option Json) :
    AllOrNothing (validateClientMethod o method params)
      (LspJsonRpcGuard.validateClientMethod o method params) := by
  intro g
  unfold validateClientMethod LspJsonRpcGuard.validateClientMethod
  simp only [exec_bind, exec_get, exec_ite]
  split
  · rfl
  split
  · split <;> rfl
  split
  · split <;> rfl
  split
  · split <;> rfl
  split
  · split <;> rfl
  split
  · rfl
  · exact allOrNothing_validateActiveMethod method params g

theorem allOrNothing_validateClientContent (content : Content) :
    AllOrNothing (validateClientContent o content)
      (LspJsonRpcGuard.validateClientContent o content) := by
  intro g
  unfold validateClientContent LspJsonRpcGuard.validateClientContent
  cases parseJsonObject content with
  | none => rfl
  | some message => ?_
  simp only [exec_ite]
  split
  · rfl
  split
  · rfl
  cases Value.property "method" (some message) with
  | none =>
    simp only [exec_ite]
    split <;> rfl
  | some value => ?_
  dsimp only
  cases Value.string (some value) with
  | none => rfl
  | some method =>
    simp only [exec_ite]
    split
    · rfl
    · exact allOrNothing_validateClientMethod method (Value.property "params" (some message)) g

/-- The budget is not: a message that it refuses may have begun a new window. -/
theorem exec_consumeClientBudget (now : Int) (contentBytes : Nat) (g : LspJsonRpcGuard) :
    (consumeClientBudget o now contentBytes).exec g =
      g.consumeClientBudget o now contentBytes := by
  unfold consumeClientBudget restartWindow LspJsonRpcGuard.consumeClientBudget
  simp only [exec_bind, exec_get, exec_ite]
  by_cases hover : now - g.clientWindowStartedAt ≥ o.clientRateWindowMs
  · simp only [if_pos hover, exec_modify]
    split
    · rfl
    · split <;> rfl
  · simp only [if_neg hover, exec_pure]
    split
    · rfl
    · split <;> rfl

/-- The program and the function agree on the result and on what is left of the guard. -/
theorem exec_validateClientMessage (now : Int) (content : Content) (g : LspJsonRpcGuard) :
    (validateClientMessage o now content).exec g = g.validateClientMessage o now content := by
  unfold validateClientMessage LspJsonRpcGuard.validateClientMessage
  simp only [exec_bind, exec_modify, exec_consumeClientBudget]
  obtain ⟨result, charged⟩ :=
    LspJsonRpcGuard.consumeClientBudget o now content.bytes { g with pendingDocumentUpdate := none }
  cases result with
  | error violation => rfl
  | ok =>
    dsimp only
    rw [allOrNothing_validateClientContent content charged]
    cases charged.validateClientContent o content <;> rfl

end GuardM

/-! ### Rejected messages -/

/-- Nothing but the counters of the client has changed, and there is no update to be taken. -/
structure LspJsonRpcGuard.Untouched (g g' : LspJsonRpcGuard) : Prop where
  documents : g'.documents = g.documents
  documentBytes : g'.documentBytes = g.documentBytes
  initializeSeen : g'.initializeSeen = g.initializeSeen
  initializedSeen : g'.initializedSeen = g.initializedSeen
  shutdownSeen : g'.shutdownSeen = g.shutdownSeen
  serverSessionBytes : g'.serverSessionBytes = g.serverSessionBytes
  taken : g'.takeDocumentUpdate.1 = none

variable {o : LspJsonRpcGuardOptions} {g g' : LspJsonRpcGuard} {content : Content} {message : Json}

theorem untouched_of_rejected {now : Int} {violation : Violation}
    (h : g.validateClientMessage o now content = (.error violation, g')) : g.Untouched g' := by
  obtain ⟨startedAt, messages, bytes, ⟨_, hv⟩ | ⟨_, hv, _⟩⟩ :=
    validateClientMessage_content o now content g
  · obtain ⟨-, rfl⟩ := Prod.mk.inj (h.symm.trans hv)
    exact ⟨rfl, rfl, rfl, rfl, rfl, rfl, rfl⟩
  · cases h.symm.trans hv

def contentChanges (message : Json) : Option (List Json) :=
  Value.array (Value.property "contentChanges" (params message))

theorem validateClientContent_didChange (hvalue : content.value = some message)
    (named : method message = some (js "textDocument/didChange"))
    (h : g.validateClientContent o content = .ok g') :
    g.validateDidChange o (params message) = .ok g' := by
  unfold LspJsonRpcGuard.validateClientContent at h
  split at h
  · cases h
  next parsed hparse =>
  obtain rfl : message = parsed :=
    Option.some.inj (hvalue.symm.trans (value_of_parseJsonObject hparse))
  split at h
  · cases h
  split at h
  · cases h
  split at h
  · next hnone =>
    rw [method, hnone] at named
    cases named
  next value hmethod =>
  rw [method, hmethod] at named
  simp only [named] at h
  split at h
  · cases h
  unfold LspJsonRpcGuard.validateClientMethod at h
  simp only [show js "textDocument/didChange" ≠ js "$/cancelRequest" from by decide,
    show js "textDocument/didChange" ≠ js "$/setTrace" from by decide,
    show js "textDocument/didChange" ≠ js "initialize" from by decide,
    show js "textDocument/didChange" ≠ js "initialized" from by decide,
    show js "textDocument/didChange" ≠ js "shutdown" from by decide,
    show js "textDocument/didChange" ≠ js "exit" from by decide, or_self, if_false] at h
  split at h
  · cases h
  unfold LspJsonRpcGuard.validateActiveMethod at h
  rwa [if_neg (by decide), if_pos rfl] at h

theorem validateDidChange_applied {uri : JsString} {document : TrackedDocument}
    {changes : List Json} (huri : documentUri message = some uri)
    (hopened : g.documents.get uri = some document) (hchanges : contentChanges message = some changes)
    (h : g.validateDidChange o (params message) = .ok g') :
    changes.foldlM (applyDocumentChange o.maxDocumentBytes) document.text ≠ none := by
  intro hnone
  unfold LspJsonRpcGuard.validateDidChange at h
  rw [contentChanges] at hchanges
  rw [textDocumentUri_params, huri, hchanges] at h
  split at h
  · next version _ heq _ heq' =>
    obtain rfl := Option.some.inj heq
    obtain rfl := Option.some.inj heq'
    split at h
    · cases h
    rw [hopened] at h
    dsimp only at h
    split at h
    · cases h
    · rw [hnone] at h
      cases h
  · cases h

theorem rejected_message_has_no_effect (o : LspJsonRpcGuardOptions) (now : Int)
    (content : Content) (g : LspJsonRpcGuard) :
    (∀ violation g', (GuardM.validateClientMessage o now content).exec g = (.error violation, g') →
      g.Untouched g') ∧
    ∀ message uri document before change rest text, content.value = some message →
      method message = some (js "textDocument/didChange") → documentUri message = some uri →
      g.documents.get uri = some document →
      contentChanges message = some (before ++ change :: rest) →
      before.foldlM (applyDocumentChange o.maxDocumentBytes) document.text = some text →
      applyDocumentChange o.maxDocumentBytes text change = none →
      ∃ violation g', (GuardM.validateClientMessage o now content).exec g = (.error violation, g') ∧
        g.Untouched g' := by
  rw [GuardM.exec_validateClientMessage]
  refine ⟨fun violation g' h => untouched_of_rejected h, ?_⟩
  intro message uri document before change rest text hvalue named huri hopened hchanges hbefore hbad
  obtain ⟨startedAt, messages, bytes, ⟨violation, hv⟩ | ⟨g', _, hok⟩⟩ :=
    validateClientMessage_content o now content g
  · exact ⟨violation, _, hv, untouched_of_rejected hv⟩
  · -- The message cannot be accepted, since the changes up to this one would have applied.
    have hopened' : (g.charged startedAt messages bytes).documents.get uri = some document := hopened
    have hchange := validateClientContent_didChange hvalue named hok
    refine absurd ?_ (validateDidChange_applied huri hopened' hchanges hchange)
    rw [List.foldlM_append, hbefore]
    simp [hbad]

def Browser.mainOpened : LspJsonRpcGuard where
  __ := LspJsonRpcGuard.new 0
  initializeSeen := true
  initializedSeen := true
  documents := OrderedMap.empty.set Browser.mainUri ⟨js "int", 1, 3⟩
  documentBytes := 3

/-- The first change applies to the text, the second one has a range outside of it. -/
theorem second_change_is_rejected :
    Browser.mainOpened.Untouched ((GuardM.validateClientMessage Browser.session 0
      ⟨256, some (Browser.didChange Browser.mainUri 2
        [Browser.rangedChange (0, 0) (0, 3) (js "long"),
          Browser.rangedChange (7, 0) (7, 1) (js "x")])⟩).exec Browser.mainOpened).2 := by
  obtain ⟨violation, g', hexec, huntouched⟩ :=
    (rejected_message_has_no_effect Browser.session 0
      ⟨256, some (Browser.didChange Browser.mainUri 2
        [Browser.rangedChange (0, 0) (0, 3) (js "long"),
          Browser.rangedChange (7, 0) (7, 1) (js "x")])⟩ Browser.mainOpened).2
      _ Browser.mainUri ⟨js "int", 1, 3⟩ [Browser.rangedChange (0, 0) (0, 3) (js "long")]
      (Browser.rangedChange (7, 0) (7, 1) (js "x")) [] (js "long") rfl (by decide +kernel)
      (by decide +kernel) (by decide +kernel) rfl (by decide +kernel) (by decide +kernel)
  rw [hexec]
  exact huntouched

end SmartC.Lsp
