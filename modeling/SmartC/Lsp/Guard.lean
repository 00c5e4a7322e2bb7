import SmartC.Lines
import SmartC.Lsp.Json
import SmartC.OrderedMap

/-!
# The JSON-RPC guard

`LspJsonRpcGuard` decides for every message of the browser whether it is passed
on to clangd. It counts messages and bytes, follows the life cycle of the LSP
session, and keeps the text of every open document. A rejected message leaves
all of this unchanged, the counters apart, so that the checks behind the
counters return either a violation or the next state.
-/

namespace SmartC.Lsp

def LSP_DOCUMENT_MAX_BYTES : Nat := 64 * 1024

def LSP_CLIENT_RATE_WINDOW_MS : Int := 10000

def LSP_CLIENT_MAX_MESSAGES_PER_WINDOW : Nat := 300

def LSP_CLIENT_MAX_SESSION_BYTES : Nat := 32 * 1024 * 1024

def LSP_SERVER_MAX_MESSAGE_BYTES : Nat := 1024 * 1024

def LSP_SERVER_MAX_BUFFERED_BYTES : Nat := 1024 * 1024

def LSP_SERVER_MAX_SESSION_BYTES : Nat := 64 * 1024 * 1024

def LSP_MAX_CONTENT_CHANGES : Nat := 128

def MAX_JSON_NODES : Nat := 16384

def MAX_JSON_DEPTH : Nat := 64

def CLIENT_METHODS : List JsString := [
  js "$/cancelRequest",
  js "$/setTrace",
  js "codeAction/resolve",
  js "codeLens/resolve",
  js "colorPresentation",
  js "completionItem/resolve",
  js "documentLink/resolve",
  js "exit",
  js "initialize",
  js "initialized",
  js "inlayHint/resolve",
  js "shutdown",
  js "textDocument/codeAction",
  js "textDocument/codeLens",
  js "textDocument/colorPresentation",
  js "textDocument/completion",
  js "textDocument/declaration",
  js "textDocument/definition",
  js "textDocument/diagnostic",
  js "textDocument/didChange",
  js "textDocument/didClose",
  js "textDocument/didOpen",
  js "textDocument/didSave",
  js "textDocument/documentColor",
  js "textDocument/documentHighlight",
  js "textDocument/documentLink",
  js "textDocument/documentSymbol",
  js "textDocument/foldingRange",
  js "textDocument/formatting",
  js "textDocument/hover",
  js "textDocument/implementation",
  js "textDocument/inlayHint",
  js "textDocument/linkedEditingRange",
  js "textDocument/moniker",
  js "textDocument/onTypeFormatting",
  js "textDocument/prepareRename",
  js "textDocument/rangeFormatting",
  js "textDocument/references",
  js "textDocument/rename",
  js "textDocument/selectionRange",
  js "textDocument/semanticTokens/full",
  js "textDocument/semanticTokens/full/delta",
  js "textDocument/semanticTokens/range",
  js "textDocument/signatureHelp",
  js "textDocument/typeDefinition",
  js "textDocument/willSave",
  js "textDocument/willSaveWaitUntil",
  js "window/workDoneProgress/cancel",
  js "workspace/didChangeConfiguration"]

def startsWith (s : JsString) (start : String) : Bool := (js start).isPrefixOf s

def DOCUMENT_METHODS : List JsString :=
  CLIENT_METHODS.filter fun method =>
    startsWith method "textDocument/" && !startsWith method "textDocument/did"

def URI_PROPERTY_NAMES : List JsString := [js "uri", js "targetUri", js "oldUri", js "newUri"]

structure LspJsonRpcGuardOptions where
  documentUris : List JsString
  workspaceUri : JsString
  /-- `fileURLToPath(workspaceUri)` -/
  workspacePath : JsString
  maxDocumentBytes : Nat := LSP_DOCUMENT_MAX_BYTES
  clientRateWindowMs : Int := LSP_CLIENT_RATE_WINDOW_MS
  clientMaxMessagesPerWindow : Nat := LSP_CLIENT_MAX_MESSAGES_PER_WINDOW
  clientMaxSessionBytes : Nat := LSP_CLIENT_MAX_SESSION_BYTES
  serverMaxMessageBytes : Nat := LSP_SERVER_MAX_MESSAGE_BYTES
  serverMaxBufferedBytes : Nat := LSP_SERVER_MAX_BUFFERED_BYTES
  serverMaxSessionBytes : Nat := LSP_SERVER_MAX_SESSION_BYTES

structure Violation where
  closeCode : Nat
  reason : String
  deriving DecidableEq, Repr

def policyViolation (reason : String) : Violation := ⟨1008, reason⟩

def sizeViolation (reason : String) : Violation := ⟨1009, reason⟩

def overloadViolation (reason : String) : Violation := ⟨1013, reason⟩

structure LspDocumentUpdate where
  uri : JsString
  text : JsString
  notifyDependents : Bool
  deriving DecidableEq, Repr

structure LspOpenDocumentVersion where
  uri : JsString
  version : Int
  deriving DecidableEq, Repr

structure TrackedDocument where
  text : JsString
  version : Int
  bytes : Nat
  deriving DecidableEq, Repr

/-- The text of a message as far as it is looked at: its size in UTF-8, and what
`JSON.parse` makes of it. -/
structure Content where
  bytes : Nat
  value : Option Json

structure LspJsonRpcGuard where
  clientWindowStartedAt : Int
  clientMessagesInWindow : Nat
  clientSessionBytes : Nat
  serverSessionBytes : Nat
  initializeSeen : Bool
  initializedSeen : Bool
  shutdownSeen : Bool
  documents : OrderedMap JsString TrackedDocument
  documentBytes : Int
  pendingDocumentUpdate : Option LspDocumentUpdate

/-- The constructor, at the time it reads from the clock. -/
def LspJsonRpcGuard.new (now : Int) : LspJsonRpcGuard where
  clientWindowStartedAt := now
  clientMessagesInWindow := 0
  clientSessionBytes := 0
  serverSessionBytes := 0
  initializeSeen := false
  initializedSeen := false
  shutdownSeen := false
  documents := .empty
  documentBytes := 0
  pendingDocumentUpdate := none

/-! ### Checks on JSON values -/

/-- `isJsonObject(params) && isJsonObject(params.textDocument)` -/
def textDocument (params : Option Json) : Option Json :=
  let document := Value.property "textDocument" params
  if Value.isJsonObject document then document else none

def textDocumentUri (params : Option Json) : Option JsString :=
  Value.string (Value.property "uri" (textDocument params))

def isValidInitializeParams (o : LspJsonRpcGuardOptions) (params : Option Json) : Bool :=
  let rootPath := Value.property "rootPath" params
  let folders := Value.property "workspaceFolders" params
  let initializationOptions := Value.property "initializationOptions" params
  Value.isJsonObject params
    && Value.string (Value.property "rootUri" params) = some o.workspaceUri
    && (Value.isNullish rootPath || Value.string rootPath = some o.workspacePath)
    && (Value.isNullish folders ||
      match Value.array folders with
      | some [folder] => Value.string (Value.property "uri" (some folder)) = some o.workspaceUri
      | _ => false)
    && (Value.isNullish initializationOptions || Value.isEmptyObject initializationOptions)

def isSafeConfigurationChange (params : Option Json) : Bool :=
  let settings := Value.property "settings" params
  Value.isJsonObject params && (Value.isNullish settings || Value.isEmptyObject settings)

def hasAllowedTextDocument (params : Option Json) (documentUris : List JsString) : Bool :=
  match textDocumentUri params with
  | some uri => uri ∈ documentUris
  | none => false

def parseJsonObject (content : Content) : Option Json :=
  if Value.isJsonObject content.value then content.value else none

def isJsonRpcResponse (message : Option Json) : Bool :=
  let hasValidId := match Value.property "id" message with
    | some (.string _) | some (.number _) | some .null => true
    | _ => false
  let hasResult := (Value.property "result" message).isSome
  let hasError := (Value.property "error" message).isSome
  hasValidId && hasResult != hasError

def isUnexpectedUri (o : LspJsonRpcGuardOptions) : JsString × Json → Bool
  | (key, .string child) =>
    URI_PROPERTY_NAMES.contains key && child != o.workspaceUri && !o.documentUris.contains child
  | _ => false

def Json.isContainer : Json → Bool
  | .array _ | .object _ => true
  | _ => false

/-- The loop of `hasUnexpectedUri`: `nodes` more values may be visited, and the
head of the list is the top of the stack. -/
def searchUnexpectedUri (o : LspJsonRpcGuardOptions) : Nat → List (Nat × Json) → Bool
  | _, [] => false
  | 0, _ :: _ => true
  | nodes + 1, (depth, current) :: pending =>
    if depth > MAX_JSON_DEPTH then true
    else match current with
      | .array elements =>
        searchUnexpectedUri o nodes ((elements.map fun child => (depth + 1, child)).reverse ++ pending)
      | .object fields =>
        if fields.any (isUnexpectedUri o) then true
        else
          let children := (fields.map Prod.snd).filter Json.isContainer
          searchUnexpectedUri o nodes ((children.map fun child => (depth + 1, child)).reverse ++ pending)
      | _ => searchUnexpectedUri o nodes pending

def hasUnexpectedUri (o : LspJsonRpcGuardOptions) (value : Json) : Bool :=
  searchUnexpectedUri o MAX_JSON_NODES [(0, value)]

/-! ### Checks on documents -/

def isSafeDocumentText (text : JsString) (maximumBytes : Nat) : Bool :=
  !text.contains 0 && byteLength text ≤ maximumBytes

def documentVersion (value : Option Json) : Option Int :=
  match Value.safeInteger value with
  | some version => if 0 ≤ version then some version else none
  | none => none

/-- A line or character number: `Number.isSafeInteger(value) && value >= 0`. -/
def coordinate (value : Option Json) : Option Nat :=
  match Value.safeInteger value with
  | some n => if 0 ≤ n then some n.toNat else none
  | none => none

/-- The end of the line that starts at `lineStart`, without a final CR. -/
def lineEnd (text : JsString) (lineStart : Nat) : Nat :=
  let stop := (Lines.indexOf lineFeed text lineStart).getD text.length
  if lineStart < stop ∧ text[stop - 1]? = some carriageReturn then stop - 1 else stop

def positionToOffset (text : JsString) (rawPosition : Option Json) : Option Nat :=
  match coordinate (Value.property "line" rawPosition),
    coordinate (Value.property "character" rawPosition) with
  | some targetLine, some targetCharacter =>
    match Lines.skipLines lineFeed text targetLine 0 with
    | none => none
    | some lineStart =>
      if targetCharacter > lineEnd text lineStart - lineStart then none
      else some (lineStart + targetCharacter)
  | _, _ => none

/-- `rangeLength` is only looked at, not used. -/
def isValidRangeLength (rangeLength : Option Json) : Bool :=
  rangeLength.isNone || (coordinate rangeLength).isSome

def applyRange (currentText text : JsString) (range rangeLength : Option Json) :
    Option JsString :=
  match positionToOffset currentText (Value.property "start" range),
    positionToOffset currentText (Value.property "end" range) with
  | some startOffset, some endOffset =>
    if startOffset > endOffset || !isValidRangeLength rangeLength then none
    else some (currentText.take startOffset ++ text ++ currentText.drop endOffset)
  | _, _ => none

def applyDocumentChange (maximumBytes : Nat) (currentText : JsString) (rawChange : Json) :
    Option JsString :=
  match Value.string (Value.property "text" (some rawChange)) with
  | none => none
  | some text =>
    if text.contains 0 then none
    else
      let range := Value.property "range" (some rawChange)
      let next := if range.isNone then some text
        else applyRange currentText text range (Value.property "rangeLength" (some rawChange))
      next.filter fun nextText => isSafeDocumentText nextText maximumBytes

/-! ### The guard -/

namespace LspJsonRpcGuard

variable (o : LspJsonRpcGuardOptions)

def validateDidOpen (params : Option Json) (g : LspJsonRpcGuard) :
    Except Violation LspJsonRpcGuard :=
  match textDocument params with
  | none => .error (policyViolation "Invalid didOpen notification")
  | some document =>
    match Value.string (Value.property "uri" (some document)),
      Value.string (Value.property "text" (some document)),
      documentVersion (Value.property "version" (some document)) with
    | some uri, some text, some version =>
      if uri ∉ o.documentUris ∨ g.documents.has uri ∨
          !isSafeDocumentText text o.maxDocumentBytes then
        .error (policyViolation "Invalid didOpen document")
      else if g.documentBytes + byteLength text > o.maxDocumentBytes then
        .error (policyViolation "Open documents are too large")
      else .ok { g with
        documents := g.documents.set uri ⟨text, version, byteLength text⟩
        documentBytes := g.documentBytes + byteLength text
        pendingDocumentUpdate := some ⟨uri, text, false⟩ }
    | _, _, _ => .error (policyViolation "Invalid didOpen document")

/-- The end of `validateDidChange` and `validateDidSave`: an open document gets
a new text, if all open documents together stay within the limit. -/
def replaceText (uri : JsString) (document : TrackedDocument) (version : Int)
    (nextText : JsString) (g : LspJsonRpcGuard) : Except Violation LspJsonRpcGuard :=
  let nextBytes := byteLength nextText
  if g.documentBytes - document.bytes + nextBytes > o.maxDocumentBytes then
    .error (policyViolation "Open documents are too large")
  else .ok { g with
    documents := g.documents.set uri ⟨nextText, version, nextBytes⟩
    documentBytes := g.documentBytes - document.bytes + nextBytes
    pendingDocumentUpdate := some ⟨uri, nextText, true⟩ }

def validateDidChange (params : Option Json) (g : LspJsonRpcGuard) :
    Except Violation LspJsonRpcGuard :=
  match textDocumentUri params,
    documentVersion (Value.property "version" (textDocument params)),
    Value.array (Value.property "contentChanges" params) with
  | some uri, some version, some contentChanges =>
    if contentChanges.length = 0 ∨ contentChanges.length > LSP_MAX_CONTENT_CHANGES then
      .error (policyViolation "Invalid didChange notification")
    else match g.documents.get uri with
      | none => .error (policyViolation "Invalid didChange document")
      | some document =>
        if version ≤ document.version then
          .error (policyViolation "Invalid didChange document")
        else match contentChanges.foldlM (applyDocumentChange o.maxDocumentBytes) document.text with
          | none => .error (policyViolation "Invalid or oversized document change")
          | some nextText => g.replaceText o uri document version nextText
  | _, _, _ => .error (policyViolation "Invalid didChange notification")

def validateDidClose (params : Option Json) (g : LspJsonRpcGuard) :
    Except Violation LspJsonRpcGuard :=
  match textDocumentUri params with
  | none => .error (policyViolation "Invalid didClose notification")
  | some uri =>
    match g.documents.get uri with
    | none => .error (policyViolation "Invalid didClose document")
    | some document => .ok { g with
      documents := g.documents.delete uri
      documentBytes := g.documentBytes - document.bytes }

def validateDidSave (params : Option Json) (g : LspJsonRpcGuard) :
    Except Violation LspJsonRpcGuard :=
  match textDocumentUri params with
  | none => .error (policyViolation "Invalid didSave notification")
  | some uri =>
    match g.documents.get uri with
    | none => .error (policyViolation "Invalid didSave document")
    | some document =>
      match Value.property "text" params with
      | none => .ok g
      | some value =>
        match Value.string (some value) with
        | none => .error (policyViolation "Invalid didSave document")
        | some text =>
          if !isSafeDocumentText text o.maxDocumentBytes then
            .error (policyViolation "Invalid didSave document")
          else g.replaceText o uri document document.version text

/-- The part of `validateClientMethod` behind the life cycle checks. -/
def validateActiveMethod (method : JsString) (params : Option Json) (g : LspJsonRpcGuard) :
    Except Violation LspJsonRpcGuard :=
  if method = js "textDocument/didOpen" then g.validateDidOpen o params
  else if method = js "textDocument/didChange" then g.validateDidChange o params
  else if method = js "textDocument/didClose" then g.validateDidClose params
  else if method = js "textDocument/didSave" then g.validateDidSave o params
  else if method = js "workspace/didChangeConfiguration" then
    if isSafeConfigurationChange params then .ok g
    else .error (policyViolation "Workspace configuration is not allowed")
  else if method ∈ DOCUMENT_METHODS ∧ !hasAllowedTextDocument params o.documentUris then
    .error (policyViolation "Unexpected text document")
  else .ok g

def validateClientMethod (method : JsString) (params : Option Json) (g : LspJsonRpcGuard) :
    Except Violation LspJsonRpcGuard :=
  if method = js "$/cancelRequest" ∨ method = js "$/setTrace" then .ok g
  else if method = js "initialize" then
    if g.initializeSeen ∨ !isValidInitializeParams o params then
      .error (policyViolation "Invalid initialize request")
    else .ok { g with initializeSeen := true }
  else if method = js "initialized" then
    if !g.initializeSeen ∨ g.initializedSeen then
      .error (policyViolation "Invalid initialized notification")
    else .ok { g with initializedSeen := true }
  else if method = js "shutdown" then
    if !g.initializedSeen ∨ g.shutdownSeen then
      .error (policyViolation "Invalid shutdown request")
    else .ok { g with shutdownSeen := true }
  else if method = js "exit" then
    if g.shutdownSeen then .ok g else .error (policyViolation "Exit before shutdown")
  else if !g.initializedSeen ∨ g.shutdownSeen then
    .error (policyViolation "LSP session is not active")
  else g.validateActiveMethod o method params

/-- The part of `validateClientMessage` behind the budget. -/
def validateClientContent (content : Content) (g : LspJsonRpcGuard) :
    Except Violation LspJsonRpcGuard :=
  match parseJsonObject content with
  | none => .error (policyViolation "Invalid JSON-RPC message")
  | some message =>
    if Value.string (Value.property "jsonrpc" (some message)) ≠ some (js "2.0") then
      .error (policyViolation "Invalid JSON-RPC message")
    else if hasUnexpectedUri o message then .error (policyViolation "Unexpected document URI")
    else match Value.property "method" (some message) with
      | none =>
        if isJsonRpcResponse (some message) then .ok g
        else .error (policyViolation "Invalid JSON-RPC response")
      | some value =>
        match Value.string (some value) with
        | none => .error (policyViolation "LSP method is not allowed")
        | some method =>
          if method ∉ CLIENT_METHODS then .error (policyViolation "LSP method is not allowed")
          else g.validateClientMethod o method (Value.property "params" (some message))

/-- A new window starts even when the message is rejected. -/
def consumeClientBudget (now : Int) (contentBytes : Nat) (g : LspJsonRpcGuard) :
    Except Violation Unit × LspJsonRpcGuard :=
  let g := if now - g.clientWindowStartedAt ≥ o.clientRateWindowMs then
    { g with clientWindowStartedAt := now, clientMessagesInWindow := 0 } else g
  if g.clientMessagesInWindow ≥ o.clientMaxMessagesPerWindow then
    (.error (overloadViolation "LSP message rate exceeded"), g)
  else if g.clientSessionBytes + contentBytes > o.clientMaxSessionBytes then
    (.error (sizeViolation "LSP request budget exceeded"), g)
  else (.ok (), { g with
    clientMessagesInWindow := g.clientMessagesInWindow + 1
    clientSessionBytes := g.clientSessionBytes + contentBytes })

def validateClientMessage (now : Int) (content : Content) (g : LspJsonRpcGuard) :
    Except Violation Unit × LspJsonRpcGuard :=
  let g := { g with pendingDocumentUpdate := none }
  match g.consumeClientBudget o now content.bytes with
  | (.error violation, g) => (.error violation, g)
  | (.ok (), g) =>
    match g.validateClientContent o content with
    | .error violation => (.error violation, g)
    | .ok g' => (.ok (), g')

def takeDocumentUpdate (g : LspJsonRpcGuard) : Option LspDocumentUpdate × LspJsonRpcGuard :=
  (g.pendingDocumentUpdate, { g with pendingDocumentUpdate := none })

def openDocumentVersions (g : LspJsonRpcGuard) : List LspOpenDocumentVersion :=
  g.documents.entries.map fun entry => ⟨entry.1, entry.2.version⟩

def validateServerMessage (content : Content) (bufferedAmount : Nat) (g : LspJsonRpcGuard) :
    Except Violation LspJsonRpcGuard :=
  if content.bytes > o.serverMaxMessageBytes then
    .error (sizeViolation "LSP response is too large")
  else if bufferedAmount + content.bytes > o.serverMaxBufferedBytes then
    .error (overloadViolation "LSP response buffer is full")
  else if g.serverSessionBytes + content.bytes > o.serverMaxSessionBytes then
    .error (sizeViolation "LSP response budget exceeded")
  else match parseJsonObject content with
    | none => .error (policyViolation "Invalid server JSON-RPC message")
    | some message =>
      if Value.string (Value.property "jsonrpc" (some message)) ≠ some (js "2.0") then
        .error (policyViolation "Invalid server JSON-RPC message")
      else if hasUnexpectedUri o message then
        .error (policyViolation "Unexpected server document URI")
      else .ok { g with serverSessionBytes := g.serverSessionBytes + content.bytes }

end LspJsonRpcGuard

end SmartC.Lsp
