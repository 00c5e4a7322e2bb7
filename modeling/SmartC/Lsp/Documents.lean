import SmartC.Lsp.Admission

/-!
# The documents the guard keeps

After every sequence of messages the guard holds exactly the documents that the
accepted messages describe, and their sizes add up to its own count, which
never exceeds the limit.
-/

namespace SmartC.Lsp

open Reference (Notification Documents Document replay readNotification method params documentUri)

variable {o : LspJsonRpcGuardOptions} {g g' : LspJsonRpcGuard} {message : Json}
  {createdAt : Int} {log : List Json}

/-! ### The reference documents -/

def TrackedDocument.document (d : TrackedDocument) : Document := ⟨d.version, d.text⟩

/-- The guard tracks exactly the documents `docs`. -/
def Mirrors (g : LspJsonRpcGuard) (docs : Documents) : Prop :=
  ∀ uri, docs uri = (g.documents.get uri).map TrackedDocument.document

theorem Mirrors.write {docs : Documents} (h : Mirrors g docs) (uri : JsString) (version : Int)
    (text : JsString) (old : Nat) (notifyDependents : Bool) :
    Mirrors (g.write uri version text old notifyDependents)
      (Function.update docs uri (some ⟨version, text⟩)) := by
  intro uri'
  simp only [LspJsonRpcGuard.write, OrderedMap.get_set]
  by_cases hu : uri' = uri
  · subst hu
    simp [TrackedDocument.document]
  · simp [hu, h uri']

/-- What one admitted message does to the documents is what it says. -/
theorem Admitted.mirrors {docs : Documents} (h : Admitted o g message g') (hm : Mirrors g docs) :
    ∃ docs', Reference.step docs message = some docs' ∧ Mirrors g' docs' := by
  -- what the reference does not read leaves the documents alone
  have keep : ∀ {g₁ : LspJsonRpcGuard}, g₁.documents = g.documents →
      readNotification message = none →
      ∃ docs', Reference.step docs message = some docs' ∧ Mirrors g₁ docs' := by
    intro g₁ hdocuments hread
    refine ⟨docs, by rw [Reference.step, hread], fun uri => ?_⟩
    rw [hdocuments, hm uri]
  cases h with
  | response _ read => exact keep rfl read
  | ungated _ read => exact keep rfl read
  | initializeRequest _ read => exact keep rfl read
  | initialized _ read => exact keep rfl read
  | shutdown _ read => exact keep rfl read
  | exit _ read => exact keep rfl read
  | @didOpen uri version text named active read allowed closed number safe fits =>
    refine ⟨_, ?_, hm.write uri version text 0 false⟩
    have hclosed : docs uri = none := by rw [hm uri, closed, Option.map_none]
    simp only [Reference.step, read, Notification.apply, hclosed]
  | @didChange uri version changes document text named active read opened newer number applied
      safe fits =>
    refine ⟨_, ?_, hm.write uri version text document.bytes true⟩
    have hopened : docs uri = some document.document := by rw [hm uri, opened, Option.map_some]
    simp only [Reference.step, read, Notification.apply, hopened, TrackedDocument.document, applied,
      Option.map_some]
  | @didClose uri document named active read opened =>
    have hopened : docs uri = some document.document := by rw [hm uri, opened, Option.map_some]
    refine ⟨Function.update docs uri none, ?_, fun uri' => ?_⟩
    · simp only [Reference.step, read, Notification.apply, hopened]
    · simp only [OrderedMap.get_delete]
      by_cases hu : uri' = uri
      · subst hu
        simp
      · simp [hu, hm uri']
  | @didSave uri document named active read opened =>
    have hopened : docs uri = some document.document := by rw [hm uri, opened, Option.map_some]
    refine ⟨docs, ?_, hm⟩
    simp only [Reference.step, read, Notification.apply, hopened, Option.getD_none]
    rw [← hopened, Function.update_eq_self]
  | @didSaveText uri document text named active read opened safe fits =>
    have hopened : docs uri = some document.document := by rw [hm uri, opened, Option.map_some]
    refine ⟨_, ?_, hm.write uri document.version text document.bytes true⟩
    simp only [Reference.step, read, Notification.apply, hopened, Option.getD_some,
      TrackedDocument.document]
  | other _ read => exact keep rfl read

theorem mirrors (h : Fed o createdAt g log) : ∃ docs, replay log = some docs ∧ Mirrors g docs := by
  refine h.invariant (I := fun g log => ∃ docs, replay log = some docs ∧ Mirrors g docs)
    ⟨_, rfl, fun _ => rfl⟩ (fun hm => hm) ?_
  rintro g g' log message ⟨docs, hreplay, hm⟩ hadmitted
  obtain ⟨docs', hstep, hm'⟩ := hadmitted.mirrors hm
  refine ⟨docs', ?_, hm'⟩
  rw [Reference.replay_append, hreplay]
  exact hstep

def Reference.written (docs : Documents) (message : Json) : Option (JsString × JsString) :=
  ((readNotification message).bind Notification.writes).bind fun uri =>
    (docs uri).map fun document => (uri, document.text)

theorem Admitted.pending {docs : Documents} (h : Admitted o g message g')
    (hpending : g.pendingDocumentUpdate = none) (hm : Mirrors g' docs) :
    (g'.pendingDocumentUpdate.map fun update => (update.uri, update.text)) =
      Reference.written docs message := by
  have silent : readNotification message = none →
      g.pendingDocumentUpdate.map (fun update => (update.uri, update.text)) =
        Reference.written docs message := by
    intro hread
    rw [Reference.written, hread, hpending]
    rfl
  have wrote : ∀ {uri version text old notify}, g' = g.write uri version text old notify →
      (readNotification message).bind Notification.writes = some uri →
      g'.pendingDocumentUpdate.map (fun update => (update.uri, update.text)) =
        Reference.written docs message := by
    rintro uri version text old notify rfl hwrites
    rw [Reference.written, hwrites, Option.bind_some, hm uri]
    simp [LspJsonRpcGuard.write, OrderedMap.get_set, TrackedDocument.document]
  cases h with
  | response _ read => exact silent read
  | ungated _ read => exact silent read
  | initializeRequest _ read => exact silent read
  | initialized _ read => exact silent read
  | shutdown _ read => exact silent read
  | exit _ read => exact silent read
  | didOpen _ _ read => exact wrote rfl (by rw [read]; rfl)
  | didChange _ _ read => exact wrote rfl (by rw [read]; rfl)
  | didClose _ _ read =>
    rw [Reference.written, read]
    exact congrArg _ hpending
  | didSave _ _ read =>
    rw [Reference.written, read]
    exact congrArg _ hpending
  | didSaveText _ _ read => exact wrote rfl (by rw [read]; rfl)
  | other _ read => exact silent read

theorem Admitted.newer {docs : Documents} {uri version changes} (h : Admitted o g message g')
    (hm : Mirrors g docs)
    (hread : readNotification message = some (.didChange uri version changes)) :
    ∃ document, docs uri = some document ∧ document.version < version := by
  cases h with
  | response _ read => rw [read] at hread; cases hread
  | ungated _ read => rw [read] at hread; cases hread
  | initializeRequest _ read => rw [read] at hread; cases hread
  | initialized _ read => rw [read] at hread; cases hread
  | shutdown _ read => rw [read] at hread; cases hread
  | exit _ read => rw [read] at hread; cases hread
  | didOpen _ _ read => rw [read] at hread; cases hread
  | @didChange _ _ _ document _ _ _ read opened newer =>
    rw [read] at hread
    cases hread
    exact ⟨document.document, by rw [hm uri, opened, Option.map_some], newer⟩
  | didClose _ _ read => rw [read] at hread; cases hread
  | didSave _ _ read => rw [read] at hread; cases hread
  | didSaveText _ _ read => rw [read] at hread; cases hread
  | other _ read => rw [read] at hread; cases hread

/-- After every accepted message the guard tracks the documents that the accepted messages
describe, the pending update is the text this message gave to its document, and a change
carries a higher version than the document had. -/
theorem guard_mirrors_documents (h : Fed o createdAt g log) {now : Int} {content : Content}
    (hv : g.validateClientMessage o now content = (.ok (), g')) :
    ∃ message before after, content.value = some message ∧ replay log = some before ∧
      replay (log ++ [message]) = some after ∧ Mirrors g' after ∧
      (g'.takeDocumentUpdate.1.map fun update => (update.uri, update.text)) =
        Reference.written after message ∧
      ∀ uri version changes, readNotification message = some (.didChange uri version changes) →
        ∃ document, before uri = some document ∧ document.version < version := by
  obtain ⟨before, hbefore, hm⟩ := mirrors h
  obtain ⟨startedAt, messages, bytes, ⟨violation, hv'⟩ | ⟨message, g₁, hv', hvalue, hadmitted⟩⟩ :=
    validateClientMessage_cases o now content g
  · rw [hv] at hv'
    cases hv'
  · rw [hv] at hv'
    cases hv'
    have hcharged : Mirrors (g.charged startedAt messages bytes) before := hm
    obtain ⟨after, hstep, hm'⟩ := hadmitted.mirrors hcharged
    refine ⟨message, before, after, hvalue, hbefore, ?_, hm', hadmitted.pending rfl hm',
      fun uri version changes hread => hadmitted.newer hcharged hread⟩
    rw [Reference.replay_append, hbefore]
    exact hstep

/-- Two changes of one message, the second in the coordinates that the first one left. -/
def Browser.edit : Json := didChange mainUri 2 [
  rangedChange (1, 0) (1, 3) (js "long"),
  rangedChange (0, 4) (0, 6) (js "x, z;")]

theorem guard_mirrors_edit :
    ∃ g log g' after, Fed Browser.session 0 g log ∧
      g.validateClientMessage Browser.session 0 ⟨256, some Browser.edit⟩ = (.ok (), g') ∧
      replay (log ++ [Browser.edit]) = some after ∧
      after Browser.mainUri = some ⟨2, js "int x, z;\r\nlong y;\n"⟩ := by
  obtain ⟨g, log, hfed, htest⟩ := Transition.recordedWhen_of_execute (c := fun _ _ => true)
    (i := LspJsonRpcGuard.new 0) (acceptedMessage Browser.session)
    [Browser.send (Browser.initializeRequest Browser.session.workspaceUri),
      Browser.send Browser.initialized,
      Browser.send (Browser.didOpen Browser.mainUri 1 (js "int x;\r\nint y;\n"))]
    (f := fun g a => some (g.validateClientMessage Browser.session a.now a.content).2)
    (p := fun g _ =>
      let r := g.validateClientMessage Browser.session 0 ⟨256, some Browser.edit⟩
      isOk r.1 && (r.2.documents.get Browser.mainUri).map TrackedDocument.document =
        some ⟨2, js "int x, z;\r\nlong y;\n"⟩)
    (by decide +kernel)
  have hfed : Fed Browser.session 0 g log := hfed.weaken fun _ _ _ => trivial
  obtain ⟨hok, hdocument⟩ := Bool.and_eq_true_iff.1 htest
  cases hr : g.validateClientMessage Browser.session 0 ⟨256, some Browser.edit⟩ with
  | mk r g' =>
    rw [hr] at hok hdocument
    cases r with
    | error violation => cases hok
    | ok =>
      obtain ⟨message, before, after, hmessage, -, hafter, hm, -⟩ := guard_mirrors_documents hfed hr
      obtain rfl : Browser.edit = message := Option.some.inj hmessage
      exact ⟨g, log, g', after, hfed, hr, hafter, (hm _).trans (of_decide_eq_true hdocument)⟩

/-! ### The byte budget -/

structure Tracked (o : LspJsonRpcGuardOptions) (uri : JsString) (d : TrackedDocument) : Prop where
  bytes : d.bytes = byteLength d.text
  noNul : 0 ∉ d.text
  allowed : uri ∈ o.documentUris
  number : IsDocumentVersion d.version

structure WithinBudget (o : LspJsonRpcGuardOptions) (g : LspJsonRpcGuard) : Prop where
  documents : ∀ uri d, g.documents.get uri = some d → Tracked o uri d
  total : g.documentBytes = g.documents.total fun d => (byteLength d.text : Int)
  limit : g.documentBytes ≤ o.maxDocumentBytes

theorem noNul_of_safe {text : JsString} {maximumBytes : Nat}
    (h : isSafeDocumentText text maximumBytes = true) : 0 ∉ text := by
  simp only [isSafeDocumentText, Bool.and_eq_true, Bool.not_eq_true', List.contains_eq_mem,
    decide_eq_false_iff_not] at h
  exact h.1

theorem WithinBudget.write {uri : JsString} {version : Int} {text : JsString} {old : Nat}
    {notify : Bool} (h : WithinBudget o g) (hdoc : Tracked o uri ⟨text, version, byteLength text⟩)
    (htotal : (g.documents.set uri ⟨text, version, byteLength text⟩).total
        (fun d => (byteLength d.text : Int)) =
      g.documents.total (fun d => (byteLength d.text : Int)) - old + byteLength text)
    (fits : g.documentBytes - old + byteLength text ≤ o.maxDocumentBytes) :
    WithinBudget o (g.write uri version text old notify) where
  documents := by
    intro uri' d hget
    simp only [LspJsonRpcGuard.write, OrderedMap.get_set] at hget
    split at hget
    · next hu =>
      cases hget
      exact hu ▸ hdoc
    · exact h.documents uri' d hget
  total := by
    show g.documentBytes - old + byteLength text = _
    rw [h.total]
    exact htotal.symm
  limit := fits

theorem WithinBudget.replace {uri : JsString} {version : Int} {text : JsString}
    {document : TrackedDocument} {notify : Bool} (h : WithinBudget o g)
    (opened : g.documents.get uri = some document)
    (safe : isSafeDocumentText text o.maxDocumentBytes = true) (number : IsDocumentVersion version)
    (fits : g.documentBytes - document.bytes + byteLength text ≤ o.maxDocumentBytes) :
    WithinBudget o (g.write uri version text document.bytes notify) := by
  have hold := h.documents uri document opened
  refine h.write ⟨rfl, noNul_of_safe safe, hold.allowed, number⟩ ?_ fits
  rw [OrderedMap.total_set opened, hold.bytes]

theorem Admitted.withinBudget (h : Admitted o g message g') (hb : WithinBudget o g) :
    WithinBudget o g' := by
  cases h with
  | response => exact hb
  | ungated => exact hb
  | initializeRequest => exact ⟨hb.documents, hb.total, hb.limit⟩
  | initialized => exact ⟨hb.documents, hb.total, hb.limit⟩
  | shutdown => exact ⟨hb.documents, hb.total, hb.limit⟩
  | exit => exact hb
  | didOpen _ _ _ allowed closed number safe fits =>
    refine hb.write ⟨rfl, noNul_of_safe safe, allowed, number⟩ ?_ (by simpa using fits)
    rw [OrderedMap.total_set_new closed]
    simp
  | didChange _ _ _ opened _ number _ safe fits => exact hb.replace opened safe number fits
  | @didClose uri document _ _ _ opened =>
    have hdocument := hb.documents uri document opened
    refine ⟨fun uri' d hget => ?_, ?_, ?_⟩
    · simp only [OrderedMap.get_delete] at hget
      split at hget
      · cases hget
      · exact hb.documents uri' d hget
    · show g.documentBytes - document.bytes = _
      rw [OrderedMap.total_delete opened, hb.total, hdocument.bytes]
    · have := hb.limit
      show g.documentBytes - document.bytes ≤ _
      omega
  | didSave => exact hb
  | @didSaveText uri document _ _ _ _ opened safe fits =>
    exact hb.replace opened safe (hb.documents uri document opened).number fits
  | other => exact hb

/-- Whatever the messages, the guard's count is the size of the open documents, which stay
within the limit and are documents of the session. -/
theorem open_documents_within_budget (h : Transition.Reachable (guardSystem o createdAt) g) :
    WithinBudget o g := by
  obtain ⟨log, hfed⟩ := h.recorded (acceptedMessage o)
  refine Fed.invariant (I := fun g _ => WithinBudget o g) hfed ?_ ?_ fun hb ha => ha.withinBudget hb
  · exact ⟨fun _ _ hget => (nomatch hget), rfl, Int.natCast_nonneg _⟩
  · exact fun hb => ⟨hb.documents, hb.total, hb.limit⟩

theorem opened_document_within_budget :
    ∃ g, Transition.Reachable (guardSystem Browser.session 0) g ∧ WithinBudget Browser.session g ∧
      g.documentBytes = 4 := by
  obtain ⟨g, hg, hbytes⟩ := Transition.reachable_of_execute (i := LspJsonRpcGuard.new 0)
    (f := fun g a => some (g.validateClientMessage Browser.session a.now a.content).2)
    [Browser.send (Browser.initializeRequest Browser.session.workspaceUri),
      Browser.send Browser.initialized,
      Browser.send (Browser.didOpen Browser.mainUri 1 [0x61, 0xD800])]
    (p := fun g => g.documentBytes = 4) (by decide +kernel)
  exact ⟨g, hg, open_documents_within_budget hg, of_decide_eq_true hbytes⟩

end SmartC.Lsp
